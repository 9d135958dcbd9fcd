import Mathlib.Tactic.Common
import Mathlib.Algebra.Ring.Nat
import Beaglebone.Machine.Word

/-!
# Decimal text

The conversions of C's `printf` that print an `int` in decimal, and the decimal
notation of a number with a fixed number of fractional digits: `fixed k t` denotes
`t / 10 ^ k`, and `parseFixed` reads it back. Text that comes from the user is a list of
ASCII bytes: `digitsValue` is the number that digits denote.
-/

namespace Beaglebone.Machine

/-- `n` in at least `width` digits. -/
def padded (width n : Nat) : List Char :=
  List.replicate (width - (Nat.toDigits 10 n).length) '0' ++ Nat.toDigits 10 n

def sign (t : Int) : List Char := if t < 0 then ['-'] else []

/-- `%d` -/
def printD (t : Int) : List Char := sign t ++ Nat.toDigits 10 t.natAbs

/-- `%0<width>d`: the zeros stand between the sign and the digits, and the sign counts. -/
def printZeroD (width : Nat) (t : Int) : List Char := sign t ++ padded (width - (sign t).length) t.natAbs

/-- What `snprintf` stores before the NUL in a buffer of `size` bytes. -/
def snprintf (size : Nat) (text : List Char) : List Char := text.take (size - 1)

/-- `t / 10 ^ k` in decimal, with `k` digits after the point. -/
def fixed (k : Nat) (t : Int) : List Char :=
  sign t ++ Nat.toDigits 10 (t.natAbs / 10 ^ k) ++ '.' :: padded k (t.natAbs % 10 ^ k)

/-- The number that a text without sign denotes, times `10 ^ k`: digits, a point and
exactly `k` digits. -/
def parseUnsigned (k : Nat) (text : List Char) : Option Nat :=
  match text.dropWhile Char.isDigit with
  | '.' :: fraction =>
    let whole := text.takeWhile Char.isDigit
    if whole ≠ [] ∧ fraction.length = k ∧ fraction.all Char.isDigit then
      some (Nat.ofDigitChars 10 (whole ++ fraction) 0)
    else none
  | _ => none

/-- The same with an optional minus sign, which applies to the whole number. -/
def parseFixed (k : Nat) : List Char → Option Int
  | '-' :: text => (parseUnsigned k text).map fun n : Nat => -(n : Int)
  | text => (parseUnsigned k text).map fun n : Nat => (n : Int)

section

variable {k n m width : Nat} {t u : Int}

theorem ofDigitChars_padded : Nat.ofDigitChars 10 (padded width n) m =
    10 ^ (padded width n).length * m + n := by
  rw [Nat.ofDigitChars_eq_ofDigitChars_zero]
  unfold padded
  rw [Nat.ofDigitChars_append, Nat.ofDigitChars_replicate_zero, Nat.mul_zero,
    Nat.ofDigitChars_toDigits (by omega) (by omega)]

theorem padded_length (pos : 0 < k) (h : n < 10 ^ k) : (padded k n).length = k := by
  have len := (Nat.length_toDigits_le_iff (b := 10) (by omega) pos).2 h
  simp only [padded, List.length_append, List.length_replicate]
  omega

theorem padded_length_le (pos : 0 < k) (h : n < 10 ^ k) (width : Nat) :
    (padded width n).length ≤ max width k := by
  have len := (Nat.length_toDigits_le_iff (b := 10) (by omega) pos).2 h
  simp only [padded, List.length_append, List.length_replicate]
  omega

/-- No zeros are put before digits that suffice. -/
theorem padded_eq_iff : padded width n = Nat.toDigits 10 n ↔ width ≤ (Nat.toDigits 10 n).length := by
  rw [padded, List.append_left_eq_self, List.replicate_eq_nil_iff]
  omega

theorem isDigit_of_mem_toDigits {c : Char} (h : c ∈ Nat.toDigits 10 n) : c.isDigit = true :=
  Nat.isDigit_of_mem_toDigits (by omega) (by omega) h

theorem isDigit_of_mem_padded {c : Char} (h : c ∈ padded width n) : c.isDigit = true := by
  rcases List.mem_append.1 h with zero | digit
  · rw [List.eq_of_mem_replicate zero]; rfl
  · exact isDigit_of_mem_toDigits digit

/-- The digits before the point and those after it. -/
theorem parseUnsigned_point {whole fraction : List Char} (ne : whole ≠ []) (digits : ∀ c ∈ whole, c.isDigit = true) :
    parseUnsigned k (whole ++ '.' :: fraction) =
      if fraction.length = k ∧ fraction.all Char.isDigit then some (Nat.ofDigitChars 10 (whole ++ fraction) 0)
      else none := by
  unfold parseUnsigned
  rw [List.dropWhile_append_of_pos digits, List.takeWhile_append_of_pos digits]
  simp [ne, show '.'.isDigit = false from rfl]

theorem parseUnsigned_fixed (pos : 0 < k) (n : Nat) :
    parseUnsigned k (Nat.toDigits 10 (n / 10 ^ k) ++ '.' :: padded k (n % 10 ^ k)) = some n := by
  have bound : n % 10 ^ k < 10 ^ k := Nat.mod_lt _ (Nat.pow_pos (by omega))
  have value : Nat.ofDigitChars 10 (Nat.toDigits 10 (n / 10 ^ k) ++ padded k (n % 10 ^ k)) 0 = n := by
    rw [Nat.ofDigitChars_append, Nat.ofDigitChars_toDigits (by omega) (by omega), ofDigitChars_padded,
      padded_length pos bound, Nat.div_add_mod]
  rw [parseUnsigned_point Nat.toDigits_ne_nil fun c => isDigit_of_mem_toDigits, if_pos, value]
  refine ⟨padded_length pos bound, ?_⟩
  exact List.all_eq_true.2 fun c => isDigit_of_mem_padded

/-- Without zeros before them, the digits after the point decide how much they count. -/
theorem parseUnsigned_toDigits (n m : Nat) : parseUnsigned k (Nat.toDigits 10 n ++ '.' :: Nat.toDigits 10 m) =
    if (Nat.toDigits 10 m).length = k then some (10 ^ k * n + m) else none := by
  have all : (Nat.toDigits 10 m).all Char.isDigit = true := List.all_eq_true.2 fun c => isDigit_of_mem_toDigits
  have value : Nat.ofDigitChars 10 (Nat.toDigits 10 n ++ Nat.toDigits 10 m) 0 =
      10 ^ (Nat.toDigits 10 m).length * n + m := by
    rw [Nat.ofDigitChars_append, Nat.ofDigitChars_toDigits (by omega) (by omega),
      ← padded_eq_iff.2 (Nat.zero_le (Nat.toDigits 10 m).length), ofDigitChars_padded]
  rw [parseUnsigned_point Nat.toDigits_ne_nil fun c => isDigit_of_mem_toDigits, all, value]
  by_cases length : (Nat.toDigits 10 m).length = k <;> simp [length]

/-- The sign applies to the whole number. -/
theorem parseFixed_sign {ds : List Char} (ne : ds ≠ []) (digits : ∀ c ∈ ds, c.isDigit = true) (text : List Char) :
    parseFixed k (sign t ++ (ds ++ text)) =
      (parseUnsigned k (ds ++ text)).map fun n : Nat => if t < 0 then -(n : Int) else n := by
  by_cases neg : t < 0
  · simp only [sign, if_pos neg, List.cons_append, List.nil_append, parseFixed]
  · simp only [sign, if_neg neg, List.nil_append]
    cases ds with
    | nil => exact absurd rfl ne
    | cons d ds =>
      -- a text that begins with a digit has no sign
      unfold parseFixed
      split
      · next head =>
        have digit := digits d List.mem_cons_self
        cases head
        cases digit
      · rfl

/-- **Round trip** of the fixed-point notation. -/
theorem parseFixed_fixed (pos : 0 < k) (t : Int) : parseFixed k (fixed k t) = some t := by
  unfold fixed
  rw [List.append_assoc, parseFixed_sign Nat.toDigits_ne_nil fun c => isDigit_of_mem_toDigits,
    parseUnsigned_fixed pos, Option.map_some, Option.some.injEq]
  split <;> omega

/-- A sign and digits can be told apart. -/
theorem sign_append_inj {ds es : List Char} (digits : ∀ c ∈ ds, c.isDigit = true)
    (digits' : ∀ c ∈ es, c.isDigit = true) (same : sign t ++ ds = sign u ++ es) :
    (t < 0 ↔ u < 0) ∧ ds = es := by
  have noSign : '-'.isDigit = false := rfl
  unfold sign at same
  split at same <;> split at same
  · next neg neg' => exact ⟨by simp [neg, neg'], by simpa using same⟩
  · have mem : '-' ∈ es := by rw [← List.nil_append es, ← same]; simp
    rw [digits' _ mem] at noSign; cases noSign
  · have mem : '-' ∈ ds := by rw [← List.nil_append ds, same]; simp
    rw [digits _ mem] at noSign; cases noSign
  · next pos pos' => exact ⟨by simp [pos, pos'], by simpa using same⟩

theorem printD_injective : Function.Injective printD := by
  intro t u same
  obtain ⟨signs, digits⟩ := sign_append_inj (fun c => isDigit_of_mem_toDigits)
    (fun c => isDigit_of_mem_toDigits) same
  have values := congrArg (Nat.ofDigitChars 10 · 0) digits
  simp only [Nat.ofDigitChars_ten_toDigits] at values
  omega

theorem printZeroD_injective : Function.Injective (printZeroD width) := by
  intro t u same
  obtain ⟨signs, digits⟩ := sign_append_inj (fun c => isDigit_of_mem_padded)
    (fun c => isDigit_of_mem_padded) same
  have values := congrArg (Nat.ofDigitChars 10 · 0) digits
  simp only [ofDigitChars_padded, Nat.mul_zero, Nat.zero_add] at values
  omega

/-- Neither conversion prints a point. -/
theorem point_notMem_sign {ds : List Char} (digits : ∀ c ∈ ds, c.isDigit = true) : '.' ∉ sign t ++ ds := by
  intro mem
  rcases List.mem_append.1 mem with mem | mem
  · unfold sign at mem
    split at mem <;> simp at mem
  · have digit := digits _ mem
    cases digit

theorem point_notMem_printD : '.' ∉ printD t :=
  point_notMem_sign fun _ => isDigit_of_mem_toDigits

theorem point_notMem_printZeroD : '.' ∉ printZeroD width t := point_notMem_sign fun _ => isDigit_of_mem_padded

end

/-! ASCII bytes -/

/-- `'0'` to `'9'`. -/
def isDigit (b : U8) : Bool := 0x30 ≤ b.toNat && b.toNat ≤ 0x39

/-- `b - '0'` -/
def digit (b : U8) : Nat := b.toNat - 0x30

/-- The number that digits denote. -/
def digitsValue (ds : List U8) : Nat := ds.foldl (fun n d => 10 * n + digit d) 0

/-- The bytes of a text. -/
def ascii (text : List Char) : List U8 := text.map fun c => BitVec.ofNat 8 c.toNat

@[simp] theorem length_ascii (text : List Char) : (ascii text).length = text.length := List.length_map ..

theorem digit_le {b : U8} (h : isDigit b = true) : digit b ≤ 9 := by
  simp only [isDigit, Bool.and_eq_true, decide_eq_true_eq] at h
  unfold digit
  omega

theorem digitsValue_lt {ds : List U8} (digits : ∀ d ∈ ds, isDigit d = true) : digitsValue ds < 10 ^ ds.length := by
  have bound : ∀ n, ds.foldl (fun n d => 10 * n + digit d) n < (n + 1) * 10 ^ ds.length := by
    induction ds with
    | nil => exact fun n => by simp
    | cons d ds ih =>
      intro n
      have le := digit_le (digits d (by simp))
      have rest := ih (fun e mem => digits e (by simp [mem])) (10 * n + digit d)
      calc ds.foldl (fun n d => 10 * n + digit d) (10 * n + digit d)
          < (10 * n + digit d + 1) * 10 ^ ds.length := rest
        _ ≤ (10 * (n + 1)) * 10 ^ ds.length := Nat.mul_le_mul_right _ (by omega)
        _ = (n + 1) * 10 ^ (ds.length + 1) := by rw [Nat.pow_succ, Nat.mul_comm 10, Nat.mul_assoc, Nat.mul_comm 10]
  have whole := bound 0
  rwa [Nat.zero_add, Nat.one_mul] at whole

end Beaglebone.Machine
