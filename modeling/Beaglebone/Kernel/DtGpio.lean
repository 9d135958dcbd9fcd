import Beaglebone.Machine.Decimal
import Beaglebone.Machine.UserCopy
import Mathlib.Data.BitVec

/-!
# `kernel/018_dt_gpio`: a LED

`driver_write` converts what the user wrote to a number and sets the LED if the number
is 0 or 1. Ten bytes fill the buffer up to its end, so that `kstrtol` may read on into
the stack, and of its two errors only one is tested: after the other `number` has
never been written. The LED obeys the text exactly if neither happens, or the number
that comes out is not 0 or 1 (`led_obeys_iff`).
-/

namespace Beaglebone.Kernel.DtGpio

open Machine

/-- What `kstrtol` returns; the number is written on success only. -/
inductive Parsed where
  | ok (number : Int)
  | einval
  | erange
  deriving DecidableEq, Repr

/-- `sizeof(buffer)` -/
def bufferSize : Nat := 10

/-- A call of `driver_write`: the bytes of the user, how many of them cannot be copied, and
what is on the stack. -/
structure Write where
  text : List U8
  lost : Nat := 0
  rest : Rest := .zeroed
  /-- the bytes that follow `buffer` -/
  behind : List U8 := []
  /-- the initial content of `number` -/
  number : Int := 0

namespace Write

def toCopy (w : Write) : Nat := min w.text.length bufferSize

/-- `buffer`, which `memset` has cleared, after `copy_from_user`. -/
def buffer (w : Write) : List U8 :=
  copyFromUser w.rest (List.replicate bufferSize 0) 0 (w.text.take w.toCopy) w.lost

/-- What `kstrtol` is given. -/
def string (w : Write) : List U8 := cstring (w.buffer ++ w.behind)

end Write

/-- `driver_write`: its value, and what the LED is set to, if it is. -/
def driverWrite (kstrtol : List U8 → Parsed) (w : Write) : Nat × Option Int :=
  let set : Int → Option Int := fun number => if number = 0 ∨ number = 1 then some number else none
  let led := match kstrtol w.string with
    | .einval => none
    | .ok number => set number
    | .erange => set w.number
  (copied w.toCopy w.lost, led)

/-- The bytes that the write accepts. -/
def Write.accepted (w : Write) : List U8 := w.text.take (copied w.toCopy w.lost)

/-- They are a string that ends inside the buffer. -/
def Write.Terminated (w : Write) : Prop := w.accepted.length < bufferSize ∨ 0 ∈ w.accepted

/-- The LED is set only to a number 0 or 1 that the accepted bytes denote. -/
def Obeys (kstrtol : List U8 → Parsed) (w : Write) : Prop :=
  ∀ v, (driverWrite kstrtol w).2 = some v →
    w.Terminated ∧ kstrtol (cstring w.accepted) = .ok v ∧ (v = 0 ∨ v = 1)

section

variable {w : Write} {kstrtol : List U8 → Parsed}

theorem accepted_length (w : Write) : w.accepted.length = copied w.toCopy w.lost := by
  have le : copied w.toCopy w.lost ≤ w.toCopy := copied_le
  rw [Write.accepted, List.length_take]
  unfold Write.toCopy at *
  omega

theorem buffer_eq (w : Write) : w.buffer = w.accepted ++ List.replicate (bufferSize - w.accepted.length) 0 := by
  have tried : (w.text.take w.toCopy).length = w.toCopy := length_take_min w.text bufferSize
  have fits : (w.text.take w.toCopy).length ≤ bufferSize := by
    rw [tried]
    exact Nat.min_le_right ..
  rw [Write.buffer, copyFromUser_zeros fits, tried, List.take_take, Nat.min_eq_left copied_le, accepted_length]
  rfl

/-- A string that ends inside the buffer is read as such. -/
theorem string_of_terminated (h : w.Terminated) : w.string = cstring w.accepted := by
  rw [Write.string, buffer_eq, List.append_assoc]
  rcases h with short | nul
  · -- the first byte after the accepted ones is 0
    obtain ⟨k, zeros⟩ : ∃ k, bufferSize - w.accepted.length = k + 1 := ⟨bufferSize - w.accepted.length - 1, by omega⟩
    rw [zeros, List.replicate_succ, List.cons_append]
    exact cstring_append_nul
  · exact cstring_of_mem nul

theorem led_of_ok {v : Int} (parsed : kstrtol w.string = .ok v) :
    (driverWrite kstrtol w).2 = if v = 0 ∨ v = 1 then some v else none := by
  rw [driverWrite, parsed]

theorem led_of_einval (parsed : kstrtol w.string = .einval) : (driverWrite kstrtol w).2 = none := by
  rw [driverWrite, parsed]

theorem led_of_erange (parsed : kstrtol w.string = .erange) :
    (driverWrite kstrtol w).2 = if w.number = 0 ∨ w.number = 1 then some w.number else none := by
  rw [driverWrite, parsed]

/-- What is set is 0 or 1. -/
theorem set_eq_some {n v : Int} : (if n = 0 ∨ n = 1 then some n else none) = some v ↔ n = v ∧ (v = 0 ∨ v = 1) := by
  split
  · next one => simp only [Option.some.injEq]; exact ⟨fun same => ⟨same, same ▸ one⟩, And.left⟩
  · next other => exact ⟨nofun, fun ⟨same, one⟩ => absurd (same ▸ one) other⟩

/-- `kstrtol` reports no overflow that `number` could hide, and takes no 0 or 1 from
beyond the buffer. -/
theorem obeys_of (hidden : kstrtol w.string = .erange → w.number ≠ 0 ∧ w.number ≠ 1)
    (inside : ¬ w.Terminated → kstrtol w.string ≠ .ok 0 ∧ kstrtol w.string ≠ .ok 1) : Obeys kstrtol w := by
  intro v set
  cases parsed : kstrtol w.string with
  | einval =>
    rw [led_of_einval parsed] at set
    cases set
  | ok n =>
    rw [led_of_ok parsed, set_eq_some] at set
    obtain ⟨rfl, one⟩ := set
    have ends : w.Terminated := by
      by_contra past
      obtain ⟨notZero, notOne⟩ := inside past
      rcases one with rfl | rfl
      · exact notZero parsed
      · exact notOne parsed
    exact ⟨ends, by rw [← string_of_terminated ends, parsed], one⟩
  | erange =>
    obtain ⟨notZero, notOne⟩ := hidden parsed
    rw [led_of_erange parsed, if_neg (by omega)] at set
    cases set

end

/-- **The LED obeys the text** exactly if `kstrtol` reports no overflow that `number`
could hide, and takes no 0 or 1 from beyond the buffer. -/
theorem led_obeys_iff (kstrtol : List U8 → Parsed) (w : Write) : Obeys kstrtol w ↔
    (kstrtol w.string = .erange → w.number ≠ 0 ∧ w.number ≠ 1) ∧
    (¬ w.Terminated → kstrtol w.string ≠ .ok 0 ∧ kstrtol w.string ≠ .ok 1) := by
  refine ⟨fun obeys => ⟨fun overflow => ?_, fun past => ?_⟩, fun ⟨hidden, inside⟩ => obeys_of hidden inside⟩
  · by_contra one
    have set : (driverWrite kstrtol w).2 = some w.number := by rw [led_of_erange overflow, if_pos (by omega)]
    obtain ⟨ends, value, -⟩ := obeys _ set
    rw [← string_of_terminated ends, overflow] at value
    cases value
  · constructor <;> intro parsed
    all_goals exact past (obeys _ (led_of_ok parsed)).1

/-! ## `kstrtol` itself -/

/-- `kstrtol(s, 10, &number)`: a sign, digits, and a newline at the end or not; `long`
has 32 bits, the digits are collected in 64. -/
def kstrtol (s : List U8) : Parsed :=
  let unsigned := if s.head? = some 0x2D ∨ s.head? = some 0x2B then s.tail else s
  let digits := unsigned.takeWhile isDigit
  let rest := unsigned.dropWhile isDigit
  if 2 ^ 64 ≤ digitsValue digits then .erange
  else if digits = [] ∨ (rest ≠ [] ∧ rest ≠ [0x0A]) then .einval
  else
    let number : Int := if s.head? = some 0x2D then -digitsValue digits else digitsValue digits
    if -2 ^ 31 ≤ number ∧ number < 2 ^ 31 then .ok number else .erange

/-- Nine characters do not overflow. -/
theorem kstrtol_in_range {s : List U8} (short : s.length < bufferSize) : kstrtol s ≠ .erange := by
  unfold kstrtol
  extract_lets unsigned digits rest number
  have length : digits.length ≤ 9 := by
    have part : digits.length ≤ unsigned.length := (List.takeWhile_prefix _).length_le
    have whole : unsigned.length ≤ s.length := by
      show (if _ then _ else _ : List U8).length ≤ _
      split
      · rw [List.length_tail]; omega
      · exact Nat.le_refl _
    unfold bufferSize at short
    omega
  have value : digitsValue digits < 10 ^ 9 :=
    Nat.lt_of_lt_of_le (digitsValue_lt (List.all_eq_true.1 List.all_takeWhile)) (Nat.pow_le_pow_right (by omega) length)
  have range : -2 ^ 31 ≤ number ∧ number < 2 ^ 31 := by
    simp only [number]
    split <;> omega
  rw [if_neg (by omega), if_pos range]
  split <;> nofun

/-- The LED obeys every text that ends inside the buffer. -/
theorem obeys_of_terminated {w : Write} (ends : w.Terminated) : Obeys kstrtol w := by
  refine obeys_of (fun overflow => ?_) fun past => absurd ends past
  have short : w.string.length < bufferSize := by
    rw [string_of_terminated ends]
    rcases ends with few | nul
    · exact Nat.lt_of_le_of_lt (cstring_length_le _) few
    · have fits : w.accepted.length ≤ bufferSize := by
        rw [accepted_length]
        exact Nat.le_trans copied_le (Nat.min_le_right ..)
      exact Nat.lt_of_lt_of_le (cstring_length_lt nul) fits
  exact absurd overflow (kstrtol_in_range short)

/-- Ten digits, while `number` happens to be 1. -/
def tooLarge : Write := { text := ascii "2147483648".toList, behind := [0], number := 1 }

theorem tooLarge_not_obeyed : ¬ ∀ w, Obeys kstrtol w := by
  intro all
  have set : (driverWrite kstrtol tooLarge).2 = some 1 := by decide
  have value := (all tooLarge 1 set).2.1
  exact absurd value (by decide)

end Beaglebone.Kernel.DtGpio
