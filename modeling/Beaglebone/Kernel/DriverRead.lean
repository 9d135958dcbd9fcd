import Beaglebone.CharDevice.Read
import Beaglebone.Kernel.DtI2c
import Beaglebone.Machine.UserCopy

/-!
# Reading the temperature from `kernel/005_bmp280` and `kernel/019_dt_i2c`

`driver_read` of both modules prints into `out_string` on its stack and hands out as
many bytes of it as the user asks for, also those behind the text: what was on the stack
is hidden exactly from a user who asks for no more than the text and its NUL
(`stack_hidden_iff`). The text has no zero before a fraction of one digit, so that it
denotes another number, the same as another temperature (`line_denotes_iff`).
-/

namespace Beaglebone.Kernel.DriverRead

open Machine
open Beaglebone.Bmp280 (Calibration)

/-- `sizeof(out_string)` -/
def outStringSize : Nat := 20

/-- What stands in `out_string` before it is written. -/
structure Stack where
  cells : List U8
  size : cells.length = outStringSize

/-- `out_string` up to its NUL: `"%d.%d\n"` of `temperature/100` and `temperature%100`. -/
def text (temperature : S32) : List Char :=
  snprintf outStringSize
    (printD (temperature.sdiv 100).toInt ++ '.' :: (printD (temperature.srem 100).toInt ++ ['\n']))

/-- The bytes that a call hands to `copy_to_user`, and its value. -/
structure Copy where
  handed : List U8
  value : Nat

section Functions

variable {m : Type → Type} [Monad m]

/-- `driver_read` of `count` bytes, the last `lost` of which cannot be copied, as it is
written in both modules. -/
def printTemperature (readTemperature : m S32) (stack : Stack) (count lost : Nat) : m Copy := do
  let toCopy := min count outStringSize
  let temperature ← readTemperature
  let outString := store stack.cells 0 (ascii (text temperature) ++ [0])
  return { handed := outString.take toCopy, value := copied toCopy lost }

/-- The two modules. -/
inductive Sample where
  | bmp280
  | dtI2c

/-- `read_temperature`: the text of the two functions is the same. -/
def Sample.readTemperature (bus : DtI2c.Smbus m) (c : Calibration) : Sample → m S32
  | .bmp280 => DtI2c.readTemperature bus c
  | .dtI2c => DtI2c.readTemperature bus c

/-- `driver_read` -/
def Sample.driverRead (readTemperature : m S32) (stack : Stack) (count lost : Nat) : Sample → m Copy
  | .bmp280 => printTemperature readTemperature stack count lost
  | .dtI2c => printTemperature readTemperature stack count lost

end Functions

/-- The user gets the same bytes whatever was on the stack. -/
def Hidden (read : Stack → Id Copy) : Prop := ∀ old old', (read old).handed = (read old').handed

/-- A module's sensor: the results of its bus, and the calibration it has stored. -/
structure Sensor where
  bus : DtI2c.Smbus Id
  c : Calibration

def Sample.temperature (x : Sample) (s : Sensor) : S32 := x.readTemperature s.bus s.c

/-- The line of `t` denotes `n / 10 ^ k`. -/
def Number (t : S32) (k : Nat) (n : Int) : Prop := parseFixed k (text t).dropLast = some n

/-- The line denotes `t / 100`. -/
def Denotes (t : S32) : Prop := ∃ k n, Number t k n ∧ 100 * n = t.toInt * 10 ^ k

def SameNumber (t u : S32) : Prop := ∃ k n l m, Number t k n ∧ Number u l m ∧ n * 10 ^ l = m * 10 ^ k

/-- `t` has as many hundredths as `u` has tenths. -/
def Confused (t u : Int) : Prop := 0 ≤ t ∧ 0 ≤ u ∧ t / 100 = u / 100 ∧ 0 < t % 100 ∧ u % 100 = 10 * (t % 100)

section

variable {t u : S32} {k : Nat} {n : Int}

/-- `out_string` before `snprintf` cuts it. -/
def format (t : Int) : List Char := printD (t.tdiv 100) ++ '.' :: (printD (t.tmod 100) ++ ['\n'])

theorem length_printD_le {t : Int} (pos : 0 < k) (h : t.natAbs < 10 ^ k) : (printD t).length ≤ k + 1 := by
  have digits := (Nat.length_toDigits_le_iff (b := 10) (by omega) pos).2 h
  have sign : (sign t).length ≤ 1 := by unfold sign; split <;> simp
  rw [printD, List.length_append]
  omega

theorem remainder_sign (t : Int) : 100 * t.tdiv 100 + t.tmod 100 = t ∧
    (0 ≤ t ∧ 0 ≤ t.tmod 100 ∧ t.tmod 100 < 100 ∨ t < 0 ∧ t.tmod 100 ≤ 0 ∧ -100 < t.tmod 100) := by
  obtain ⟨parts, quotient, remainder⟩ := CharDevice.hundredths t
  omega

/-- Every `int` fits. -/
theorem length_format (t : S32) : (format t.toInt).length ≤ 14 := by
  obtain ⟨low, high⟩ := toInt_bounds t
  obtain ⟨-, quotient, remainder⟩ := CharDevice.hundredths t.toInt
  have whole := length_printD_le (k := 8) (t := t.toInt.tdiv 100) (by omega) (by omega)
  have fraction := length_printD_le (k := 2) (t := t.toInt.tmod 100) (by omega) (by omega)
  simp only [format, List.length_append, List.length_cons, List.length_nil]
  omega

theorem text_eq (t : S32) : text t = format t.toInt := by
  have hundred : (100 : S32).toInt = 100 := by decide
  have length := length_format t
  unfold text
  rw [BitVec.toInt_sdiv_of_ne_or_ne _ _ (.inr (by decide)), BitVec.toInt_srem, hundred]
  exact List.take_of_length_le (by rw [outStringSize]; exact Nat.le_trans length (by omega))

theorem dropLast_text (t : S32) : (text t).dropLast = sign (t.toInt.tdiv 100) ++
    (Nat.toDigits 10 (t.toInt.tdiv 100).natAbs ++ '.' :: printD (t.toInt.tmod 100)) := by
  have line : format t.toInt = (sign (t.toInt.tdiv 100) ++
      (Nat.toDigits 10 (t.toInt.tdiv 100).natAbs ++ '.' :: printD (t.toInt.tmod 100))) ++ ['\n'] := by
    simp [format, printD]
  rw [text_eq, line, List.dropLast_concat]

theorem length_text (t : S32) : (text t).length ≤ 14 := by
  rw [text_eq]
  exact length_format t

theorem handed_eq (x : Sample) (readTemperature : Id S32) (stack : Stack) (count lost : Nat) :
    (x.driverRead readTemperature stack count lost).handed =
      (store stack.cells 0 (ascii (text readTemperature) ++ [0])).take (min count outStringSize) := by
  cases x <;> rfl

/-- **The stack** is hidden from a user who asks for no more than the degrees, the
hundredths, the point, the newline and the NUL. -/
theorem stack_hidden_iff (x : Sample) (temperature : S32) (count lost : Nat) :
    Hidden (fun stack => x.driverRead (pure temperature) stack count lost) ↔
      count ≤ (printD (temperature.toInt.tdiv 100)).length + (printD (temperature.toInt.tmod 100)).length + 3 := by
  have length := length_text temperature
  have parts : (text temperature).length + 1 =
      (printD (temperature.toInt.tdiv 100)).length + (printD (temperature.toInt.tmod 100)).length + 3 := by
    simp only [text_eq, format, List.length_append, List.length_cons, List.length_nil]
    omega
  have : Nontrivial U8 := ⟨0, 1, by decide⟩
  have stored := store_take_iff (ascii (text temperature) ++ [0]) (Nat.min_le_right count outStringSize)
  rw [List.length_append, length_ascii, List.length_singleton] at stored
  have size : min count outStringSize ≤ (text temperature).length + 1 ↔ count ≤ (text temperature).length + 1 := by
    rw [outStringSize]
    omega
  rw [← parts, ← size, ← stored]
  constructor
  · intro hidden old old' len len'
    have same := hidden ⟨old, len⟩ ⟨old', len'⟩
    rwa [handed_eq, handed_eq] at same
  · intro same old old'
    rw [handed_eq, handed_eq]
    exact same _ _ old.size old'.size

/-- `read` into a buffer of 20 bytes. -/
theorem wholeRead_not_hidden : ¬ ∀ (x : Sample) (temperature : S32) (count lost : Nat),
    Hidden fun stack => x.driverRead (pure temperature) stack count lost := by
  intro all
  have same := all .dtI2c 2512 outStringSize 0 ⟨List.replicate 20 0, rfl⟩ ⟨List.replicate 20 1, rfl⟩
  exact absurd same (by decide)

theorem number_negative (h : t.toInt.tmod 100 < 0) : ¬ Number t k n := by
  have minus : (printD (t.toInt.tmod 100)).all Char.isDigit = false := by
    rw [printD, sign, if_pos h]
    rfl
  rw [Number, dropLast_text, parseFixed_sign Nat.toDigits_ne_nil fun c => isDigit_of_mem_toDigits,
    parseUnsigned_point Nat.toDigits_ne_nil fun c => isDigit_of_mem_toDigits, minus]
  simp

/-- The sign counts for the fraction too, but a line with a sign has none. -/
theorem signed_digits (k : Nat) (h : ¬ t.toInt.tmod 100 < 0) :
    (if t.toInt.tdiv 100 < 0 then -((10 ^ k * (t.toInt.tdiv 100).natAbs + (t.toInt.tmod 100).natAbs : Nat) : Int)
      else ((10 ^ k * (t.toInt.tdiv 100).natAbs + (t.toInt.tmod 100).natAbs : Nat) : Int)) =
    10 ^ k * t.toInt.tdiv 100 + t.toInt.tmod 100 := by
  obtain ⟨parts, signs⟩ := remainder_sign t.toInt
  rw [Int.natCast_add, Int.natCast_mul, Int.natCast_pow, Int.natAbs_of_nonneg (Int.not_lt.1 h)]
  split
  · have none : t.toInt.tmod 100 = 0 := by omega
    rw [none, Int.ofNat_natAbs_of_nonpos (by omega)]
    simp
  · rw [Int.natAbs_of_nonneg (by omega)]
    rfl

/-- **The number** that the line denotes, if it denotes any: a fraction of one digit
counts as tenths. -/
theorem number_iff : Number t k n ↔ 0 ≤ t.toInt.tmod 100 ∧
    (t.toInt.tmod 100 < 10 ∧ k = 1 ∧ n = 10 * t.toInt.tdiv 100 + t.toInt.tmod 100 ∨
      10 ≤ t.toInt.tmod 100 ∧ k = 2 ∧ n = 100 * t.toInt.tdiv 100 + t.toInt.tmod 100) := by
  by_cases neg : t.toInt.tmod 100 < 0
  · simp only [number_negative neg, false_iff]
    omega
  · obtain ⟨parts, signs⟩ := remainder_sign t.toInt
    have unsigned : printD (t.toInt.tmod 100) = Nat.toDigits 10 (t.toInt.tmod 100).natAbs := by
      rw [printD, sign, if_neg neg, List.nil_append]
    have some : (Nat.toDigits 10 (t.toInt.tmod 100).natAbs).length ≠ 0 :=
      fun none => Nat.toDigits_ne_nil (List.length_eq_zero_iff.1 none)
    have one := Nat.length_toDigits_le_iff (b := 10) (n := (t.toInt.tmod 100).natAbs) (k := 1) (by omega) (by omega)
    have two := Nat.length_toDigits_le_iff (b := 10) (n := (t.toInt.tmod 100).natAbs) (k := 2) (by omega) (by omega)
    rw [Number, dropLast_text, parseFixed_sign Nat.toDigits_ne_nil fun c => isDigit_of_mem_toDigits, unsigned,
      parseUnsigned_toDigits]
    by_cases length : (Nat.toDigits 10 (t.toInt.tmod 100).natAbs).length = k
    · rw [if_pos length, Option.map_some, Option.some.injEq, signed_digits k neg]
      by_cases tenths : t.toInt.tmod 100 < 10
      · obtain rfl : k = 1 := by omega
        omega
      · obtain rfl : k = 2 := by omega
        omega
    · rw [if_neg length, Option.map_none]
      simp only [reduceCtorEq, false_iff]
      omega

theorem denotes_iff (t : S32) : Denotes t ↔ 100 ∣ t.toInt ∨ 0 ≤ t.toInt ∧ 10 ≤ t.toInt % 100 := by
  obtain ⟨parts, signs⟩ := remainder_sign t.toInt
  unfold Denotes
  constructor
  · rintro ⟨k, n, number, value⟩
    obtain ⟨pos, ⟨-, rfl, rfl⟩ | ⟨two, rfl, rfl⟩⟩ := number_iff.1 number <;> omega
  · intro ok
    by_cases tenths : t.toInt.tmod 100 < 10
    · exact ⟨1, _, number_iff.2 ⟨by omega, .inl ⟨tenths, rfl, rfl⟩⟩, by omega⟩
    · exact ⟨2, _, number_iff.2 ⟨by omega, .inr ⟨by omega, rfl, rfl⟩⟩, by omega⟩

theorem sameNumber_iff (t u : S32) : t ≠ u ∧ SameNumber t u ↔ Confused t.toInt u.toInt ∨ Confused u.toInt t.toInt := by
  obtain ⟨parts, signs⟩ := remainder_sign t.toInt
  obtain ⟨parts', signs'⟩ := remainder_sign u.toInt
  unfold SameNumber Confused
  rw [ne_eq, ← BitVec.toInt_inj]
  constructor
  · rintro ⟨ne, k, n, l, m, number, number', same⟩
    obtain ⟨pos, ⟨one, rfl, rfl⟩ | ⟨two, rfl, rfl⟩⟩ := number_iff.1 number <;>
      obtain ⟨pos', ⟨one', rfl, rfl⟩ | ⟨two', rfl, rfl⟩⟩ := number_iff.1 number' <;> omega
  · rintro (⟨low, low', whole, pos, tenths⟩ | ⟨low, low', whole, pos, tenths⟩)
    · exact ⟨by omega, 1, _, 2, _, number_iff.2 ⟨by omega, .inl ⟨by omega, rfl, rfl⟩⟩,
        number_iff.2 ⟨by omega, .inr ⟨by omega, rfl, rfl⟩⟩, by omega⟩
    · exact ⟨by omega, 2, _, 1, _, number_iff.2 ⟨by omega, .inr ⟨by omega, rfl, rfl⟩⟩,
        number_iff.2 ⟨by omega, .inl ⟨by omega, rfl, rfl⟩⟩, by omega⟩

theorem temperature_bounds (x : Sample) (s : Sensor) :
    -2 ^ 23 ≤ (x.temperature s).toInt ∧ (x.temperature s).toInt < 2 ^ 23 := by
  have shifted : ∃ v : S32, x.temperature s = v.sshiftRight 8 := by
    cases x <;> exact ⟨_, rfl⟩
  obtain ⟨v, shifted⟩ := shifted
  obtain ⟨low, high⟩ := toInt_bounds v
  rw [shifted, toInt_sshiftRight]
  omega

/-- The other driver prints two digits. -/
theorem text_eq_outString_iff (low : 0 ≤ t.toInt) (high : t.toInt < 2 ^ 23) :
    text t = CharDevice.outString t ↔ 10 ≤ t.toInt % 100 := by
  obtain ⟨parts, signs⟩ := remainder_sign t.toInt
  have unsigned : sign (t.toInt.tdiv 100) = [] := if_neg (by omega)
  have unsigned' : sign (t.toInt.tmod 100) = [] := if_neg (by omega)
  have fits : (CharDevice.format t.toInt).length < CharDevice.outStringSize := by
    have whole := (Nat.length_toDigits_le_iff (b := 10) (n := (t.toInt.tdiv 100).natAbs) (k := 5)
      (by omega) (by omega)).2 (by omega)
    have fraction := padded_length (k := 2) (n := (t.toInt.tmod 100).natAbs) (by omega) (by omega)
    simp only [CharDevice.format, CharDevice.outStringSize, printD, printZeroD, unsigned, unsigned', List.nil_append,
      List.length_append, List.length_cons, List.length_nil, Nat.sub_zero]
    omega
  have digits := Nat.length_toDigits_le_iff (b := 10) (n := (t.toInt.tmod 100).natAbs) (k := 1) (by omega) (by omega)
  rw [text_eq, CharDevice.outString_of_length fits, eq_comm, format, CharDevice.format_eq_iff]
  simp only [printD, printZeroD, unsigned, unsigned', List.nil_append, List.length_nil, Nat.sub_zero, true_and, padded_eq_iff]
  omega

/-- **The line** is the temperature and its NUL. It denotes the temperature exactly if it
has no hundredths, or ten or more above zero; it is the line of `char_device_read`
exactly if it has ten or more; and two temperatures have lines that denote the same
number exactly if one has as many hundredths as the other has tenths. -/
theorem line_denotes_iff (x y : Sample) (s r : Sensor) :
    (∀ stack lost, ascii (text (x.temperature s)) ++ [0] <+:
      (x.driverRead (x.readTemperature s.bus s.c) stack outStringSize lost).handed) ∧
    (Denotes (x.temperature s) ↔ 100 ∣ (x.temperature s).toInt ∨
      0 ≤ (x.temperature s).toInt ∧ 10 ≤ (x.temperature s).toInt % 100) ∧
    (0 ≤ (x.temperature s).toInt →
      (text (x.temperature s) = CharDevice.outString (x.temperature s) ↔ 10 ≤ (x.temperature s).toInt % 100)) ∧
    (x.temperature s ≠ y.temperature r ∧ SameNumber (x.temperature s) (y.temperature r) ↔
      Confused (x.temperature s).toInt (y.temperature r).toInt ∨
      Confused (y.temperature r).toInt (x.temperature s).toInt) := by
  obtain ⟨-, high⟩ := temperature_bounds x s
  refine ⟨fun stack lost => ?_, denotes_iff _, fun low => text_eq_outString_iff low high, sameNumber_iff _ _⟩
  have length := length_text (x.temperature s)
  have size : (ascii (text (x.temperature s)) ++ [0]).length ≤ outStringSize := by
    rw [List.length_append, length_ascii, List.length_singleton, outStringSize]
    omega
  have handed := handed_eq x (x.readTemperature s.bus s.c) stack outStringSize lost
  rw [show text (x.readTemperature s.bus s.c) = text (x.temperature s) from rfl] at handed
  rw [handed, Nat.min_self, store, List.take_zero, List.nil_append, List.take_append, List.take_of_length_le size]
  exact List.prefix_append ..

/-- A sensor at 25.05 °C, after its probe. -/
def warmSensor : Sensor where
  bus := (⟨27504, 26435, 0, 0x7E, 0xD8, 0x00⟩ : Beaglebone.Bmp280.Chip).smbus
  c := ⟨27504, 26435, 0⟩

/-- The line is `25.5`. -/
theorem warmSensor_denotes_not : ¬ ∀ (x : Sample) (s : Sensor), Denotes (x.temperature s) := by
  intro all
  have denotes := (denotes_iff _).1 (all .dtI2c warmSensor)
  have temperature : (Sample.dtI2c.temperature warmSensor).toInt = 2505 := by decide +kernel
  omega

end

end Beaglebone.Kernel.DriverRead
