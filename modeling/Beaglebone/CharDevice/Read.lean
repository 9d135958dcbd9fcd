import Beaglebone.Bmp280.Overflow
import Beaglebone.CharDevice.Calls
import Mathlib.Data.List.Basic

/-!
# Reading the device

The text that `char_device_read` prints is the decimal notation of the temperature
exactly if the temperature is not negative or has no fraction: the sign of a C
remainder is printed after the point, and that of a quotient 0 not at all
(`text_denotes_iff`). The text is never cut off, and no two temperatures have the
same. `BMP280_ERROR` is itself a temperature, which only Kelvin and Fahrenheit
exclude; in Celsius it is read at the bytes and calibration words that solve
`MinusSixtySix`, a window for a multiple of `dig_T2` (`error_iff`).
-/

namespace Beaglebone.CharDevice

open Machine Bmp280

/-! ## The text -/

/-- A line that denotes `t / 100`, and so reads back as `t`. -/
def Denotes (t : Int) (text : List Char) : Prop :=
  text = fixed 2 t ++ ['\n'] ∧ parseFixed 2 text.dropLast = some t

/-- `out_string` before `snprintf` cuts it. -/
def format (t : Int) : List Char := printD (t.tdiv 100) ++ '.' :: (printZeroD 2 (t.tmod 100) ++ ['\n'])

section Text

variable {t u : Int}

/-- Quotient and remainder by hundred. -/
theorem hundredths (t : Int) : 100 * t.tdiv 100 + t.tmod 100 = t ∧
    (t.tdiv 100).natAbs = t.natAbs / 100 ∧ (t.tmod 100).natAbs = t.natAbs % 100 :=
  ⟨Int.mul_tdiv_add_tmod t 100, Int.natAbs_tdiv t 100, Int.natAbs_tmod t 100⟩

/-- What stands before the point, and what after it: the text has one point only. -/
theorem format_eq_iff {whole fraction : List Char} : format t = whole ++ '.' :: (fraction ++ ['\n']) ↔
    printD (t.tdiv 100) = whole ∧ printZeroD 2 (t.tmod 100) = fraction := by
  unfold format
  rw [List.append_cons_inj_of_notMem]
  · simp
  · exact point_notMem_printD
  · simp [point_notMem_printZeroD]

theorem format_injective : Function.Injective format := by
  intro t u same
  obtain ⟨quotient, remainder⟩ := format_eq_iff.1 same
  have q := printD_injective quotient
  have r := printZeroD_injective remainder
  rw [← Int.mul_tdiv_add_tmod t 100, q, r, Int.mul_tdiv_add_tmod]

theorem fixed_line (t : Int) : fixed 2 t ++ ['\n'] =
    (sign t ++ Nat.toDigits 10 (t.natAbs / 100)) ++ '.' :: (padded 2 (t.natAbs % 100) ++ ['\n']) := by
  simp [fixed]

/-- **The line denotes the number** unless a sign is printed in the fraction, or lost. -/
theorem format_denotes_iff (t : Int) : Denotes t (format t) ↔ 0 ≤ t ∨ 100 ∣ t := by
  obtain ⟨parts, quotient, remainder⟩ := hundredths t
  have line : format t = fixed 2 t ++ ['\n'] ↔
      printD (t.tdiv 100) = sign t ++ Nat.toDigits 10 (t.natAbs / 100) ∧
      printZeroD 2 (t.tmod 100) = padded 2 (t.natAbs % 100) := by
    rw [fixed_line, format_eq_iff]
  constructor
  · rintro ⟨text, -⟩
    by_contra none
    -- a negative remainder is printed with its sign
    have neg : t.tmod 100 < 0 := by omega
    have minus : '-' ∈ padded 2 (t.natAbs % 100) := by
      rw [← (line.1 text).2]
      simp [printZeroD, sign, neg]
    have digit := isDigit_of_mem_padded minus
    cases digit
  · intro ok
    have signs : t.tdiv 100 < 0 ↔ t < 0 := by omega
    have unsigned : sign (t.tmod 100) = [] := if_neg (by omega)
    have text : format t = fixed 2 t ++ ['\n'] := by
      rw [line]
      constructor
      · unfold printD sign
        rw [quotient]
        simp only [signs]
      · unfold printZeroD
        rw [unsigned, remainder]
        rfl
    rw [text]
    refine ⟨rfl, ?_⟩
    rw [List.dropLast_concat, parseFixed_fixed (by omega)]

/-- Five digits fit into `out_string`. -/
theorem format_length (h : t.natAbs < 100000) : (format t).length < outStringSize := by
  obtain ⟨-, quotient, remainder⟩ := hundredths t
  have signs : ∀ u : Int, (sign u).length ≤ 1 := fun u => by unfold sign; split <;> simp
  have whole : (Nat.toDigits 10 (t.tdiv 100).natAbs).length ≤ 3 :=
    (Nat.length_toDigits_le_iff (by omega) (by omega)).2 (by omega)
  have fraction := padded_length_le (k := 2) (n := (t.tmod 100).natAbs) (by omega) (by omega)
    (2 - (sign (t.tmod 100)).length)
  have sign1 := signs (t.tdiv 100)
  have sign2 := signs (t.tmod 100)
  simp only [format, printD, printZeroD, outStringSize, List.length_append, List.length_cons, List.length_nil]
  omega

theorem outString_of_length {temperature : S32} (fits : (format temperature.toInt).length < outStringSize) :
    outString temperature = format temperature.toInt := by
  have hundred : (100 : S32).toInt = 100 := by decide
  unfold outString
  rw [BitVec.toInt_sdiv_of_ne_or_ne _ _ (.inr (by decide)), BitVec.toInt_srem, hundred]
  exact List.take_of_length_le (by rw [outStringSize] at *; exact Nat.le_of_lt_succ fits)

theorem outString_eq {temperature : S32} (h : temperature.toInt.natAbs < 100000) :
    outString temperature = format temperature.toInt := outString_of_length (format_length h)

end Text

/-! ## The device -/

/-- `char_device_read` after `bmp280_init`. -/
def deviceRead (x : Chip) (old : Calibration) (unit : TempUnit) (count lost : Nat) : Int × List Char := Id.run do
  let (_, c) ← bmp280Init x.bus old
  charDeviceRead x.bus c unit count lost

section Device

variable (x : Chip) (old : Calibration) (unit : TempUnit)

theorem temperature_digits : (x.temperature old unit).toInt.natAbs < 100000 := by
  have bounds := convert_bounds x.unsigned x.rawTemp unit
  rw [x.temperature_eq]
  omega

/-- Over a bus that gives its results at once. -/
theorem charDeviceRead_eq (bus : Bus Id) (c : Calibration) (unit : TempUnit) (count lost : Nat) :
    charDeviceRead bus c unit count lost =
      (let temperature : S32 := bmp280ReadTemperature bus c unit
      if temperature = bmp280Error then (-1, [])
      else
        let out := outString temperature
        let toCopy := min count (out.length + 1)
        let notCopied := min lost toCopy
        ((toCopy - notCopied : Int), (out ++ [Char.ofNat 0]).take (toCopy - notCopied))) := by
  unfold charDeviceRead
  show (if _ then _ else _) = _
  rfl

/-- A reader who asks for the whole line gets it, with its NUL. -/
theorem deviceRead_eq (h : x.temperature old unit ≠ bmp280Error) :
    deviceRead x old unit outStringSize 0 =
      (((outString (x.temperature old unit)).length + 1 : Int), outString (x.temperature old unit) ++ [Char.ofNat 0]) := by
  have length := format_length (temperature_digits x old unit)
  rw [← outString_eq (temperature_digits x old unit)] at length
  have whole : min outStringSize ((outString (x.temperature old unit)).length + 1) =
      (outString (x.temperature old unit)).length + 1 := Nat.min_eq_right length
  have read : deviceRead x old unit outStringSize 0 =
      charDeviceRead x.bus x.unsigned unit outStringSize 0 := by
    unfold deviceRead
    rw [x.bmp280Init_eq]
    rfl
  have temperature : (bmp280ReadTemperature x.bus x.unsigned unit : Id S32) = x.temperature old unit := by
    unfold Chip.temperature
    rw [x.bmp280Init_eq]
    rfl
  rw [read, charDeviceRead_eq]
  simp only [temperature]
  rw [if_neg h, whole]
  simp only [Nat.zero_min, Nat.sub_zero, Nat.cast_add, Nat.cast_one, Nat.cast_zero, Int.sub_zero]
  rw [List.take_of_length_le (by simp)]

/-- **The device text**: for every sensor and unit, unless the reading is
`BMP280_ERROR`, the reader gets the whole line, and the line denotes the temperature
exactly if it is not negative or has no fraction. Two temperatures never have the same
line. -/
theorem text_denotes_iff (h : x.temperature old unit ≠ bmp280Error) :
    (∃ text : List Char, deviceRead x old unit outStringSize 0 = ((text.length + 1 : Int), text ++ [Char.ofNat 0]) ∧
      text = format (x.temperature old unit).toInt ∧
      (Denotes (x.temperature old unit).toInt text ↔
        0 ≤ (x.temperature old unit).toInt ∨ 100 ∣ (x.temperature old unit).toInt)) ∧
    ∀ (x' : Chip) (old' : Calibration) (unit' : TempUnit),
      outString (x'.temperature old' unit') = outString (x.temperature old unit) →
      x'.temperature old' unit' = x.temperature old unit := by
  have whole := outString_eq (temperature_digits x old unit)
  refine ⟨⟨_, deviceRead_eq x old unit h, whole, ?_⟩, fun x' old' unit' same => ?_⟩
  · rw [whole]
    exact format_denotes_iff _
  · rw [whole, outString_eq (temperature_digits x' old' unit')] at same
    exact BitVec.eq_of_toInt_eq (format_injective same)

end Device

/-- A sensor at 25.12 °C and one at -0.05 °C. -/
def warmChip : Chip := ⟨27504, 26435, 0, 0x7E, 0xED, 0x00⟩
def frostChip : Chip := ⟨27504, 26435, 0, 0x6B, 0x66, 0x00⟩

theorem warmChip_denotes : ∃ text : List Char,
    deviceRead warmChip ⟨0, 0, 0⟩ .celsius outStringSize 0 = ((text.length + 1 : Int), text ++ [Char.ofNat 0]) ∧
      Denotes (warmChip.temperature ⟨0, 0, 0⟩ .celsius).toInt text := by
  obtain ⟨⟨text, read, -, denotes⟩, -⟩ := text_denotes_iff warmChip ⟨0, 0, 0⟩ .celsius (by decide +kernel)
  exact ⟨text, read, denotes.2 (.inl (by decide +kernel))⟩

/-- At -0.05 °C the line is `0.-5`. -/
theorem frostChip_denotes_not : ¬ ∀ (x : Chip) (old : Calibration) (unit : TempUnit),
    x.temperature old unit ≠ bmp280Error →
      Denotes (x.temperature old unit).toInt (outString (x.temperature old unit)) := by
  intro all
  have denotes := (all frostChip ⟨0, 0, 0⟩ .celsius (by decide +kernel)).1
  have temperature : frostChip.temperature ⟨0, 0, 0⟩ .celsius = -5 := by decide +kernel
  have line : outString (-5) = ['0', '.', '-', '5', '\n'] := by decide +kernel
  have right : fixed 2 (-5 : S32).toInt ++ ['\n'] = ['-', '0', '.', '0', '5', '\n'] := by decide +kernel
  rw [temperature, line, right] at denotes
  exact absurd denotes (by decide)

/-! ## The error value -/

/-- The outcomes of the three register reads; `none` is -1. -/
structure Reads where
  d1 : Option U8
  d2 : Option U8
  d3 : Option U8

namespace Reads

def bus (x : Reads) : Bus Id where
  cottiI2cRead a := readValue (if a = regTempMsb then x.d1 else if a = regTempLsb then x.d2 else x.d3)
  cottiI2cWrite _ _ := (0 : S32)

def Failed (x : Reads) : Prop := x.d1 = none ∨ x.d2 = none ∨ x.d3 = none

variable {x : Reads} {c : Calibration} {unit : TempUnit}

theorem readValue_some (b : U8) : readValue (some b) ≠ -1 := byte_ne_error b

theorem readRawTemp_eq (x : Reads) : (readRawTemp x.bus : Id (Option S32)) =
    if readValue x.d1 = -1 then none
    else if readValue x.d2 = -1 then none
    else if readValue x.d3 = -1 then none
    else some (rawTemp (readValue x.d1) (readValue x.d2) (readValue x.d3)) := rfl

/-- The first failed read ends `bmp280_read_temperature`. -/
theorem readTemperature_failed (h : x.Failed) : (bmp280ReadTemperature x.bus c unit : Id S32) = bmp280Error := by
  have raw : readRawTemp x.bus = (none : Option S32) := by
    rw [readRawTemp_eq]
    rcases h with h | h | h <;> simp [h, readValue]
  unfold bmp280ReadTemperature
  rw [raw]
  rfl

theorem readTemperature_read (b1 b2 b3 : U8) :
    (bmp280ReadTemperature (⟨some b1, some b2, some b3⟩ : Reads).bus c unit : Id S32) =
      unit.convert (c.temp (rawTemp (b1.setWidth 32) (b2.setWidth 32) (b3.setWidth 32))) := by
  have raw : readRawTemp (⟨some b1, some b2, some b3⟩ : Reads).bus =
      some (rawTemp (b1.setWidth 32) (b2.setWidth 32) (b3.setWidth 32)) := by
    rw [readRawTemp_eq, if_neg (readValue_some b1), if_neg (readValue_some b2), if_neg (readValue_some b3)]
    rfl
  unfold bmp280ReadTemperature
  rw [raw]
  rfl

theorem failed_or_read (x : Reads) : x.Failed ∨ ∃ b1 b2 b3, x = ⟨some b1, some b2, some b3⟩ := by
  obtain ⟨d1, d2, d3⟩ := x
  cases d1 with
  | none => exact .inl (.inl rfl)
  | some b1 =>
    cases d2 with
    | none => exact .inl (.inr (.inl rfl))
    | some b2 =>
      cases d3 with
      | none => exact .inl (.inr (.inr rfl))
      | some b3 => exact .inr ⟨b1, b2, b3, rfl⟩

/-- `char_device_read` tells an error from a temperature by `BMP280_ERROR` only. -/
theorem charDeviceRead_error (count lost : Nat) : (charDeviceRead x.bus c unit count lost : Id (Int × List Char)).1 = -1 ↔
    (bmp280ReadTemperature x.bus c unit : Id S32) = bmp280Error := by
  rw [charDeviceRead_eq]
  by_cases error : (bmp280ReadTemperature x.bus c unit : S32) = bmp280Error
  · simp [error]
  · simp only [if_neg error]
    simp only [error, iff_false]
    omega

end Reads

/-- The distance of the upper two bytes from `dig_T1`. -/
def distance (c : Calibration) (b1 b2 : U8) : Int := 256 * b1.toNat + b2.toNat - c.digT1.toInt

/-- The summand without `dig_T2`, in which two products wrap. -/
def quadratic (c : Calibration) (b1 b2 : U8) : Int :=
  ((distance c b1 b2 ^ 2).bmod (2 ^ 32) / 2 ^ 12 * c.digT3.toInt).bmod (2 ^ 32) / 2 ^ 14

/-- The bytes and calibrations of -66.66 °C, solved for `dig_T2`: modulo 2^32, its multiple
by the distance in half steps lies in a window of 51 * 2^11 numbers. -/
def MinusSixtySix (c : Calibration) (b1 b2 b3 : U8) : Prop :=
  ((2 * distance c b1 b2 + b3.toNat / 128) * c.digT2.toInt + 2 ^ 11 * (341324 + quadratic c b1 b2)) % 2 ^ 32 <
    51 * 2 ^ 11

instance (c : Calibration) (b1 b2 b3 : U8) : Decidable (MinusSixtySix c b1 b2 b3) :=
  inferInstanceAs (Decidable (_ < _))

theorem reading_products (c : Calibration) (b1 b2 b3 : U8) :
    (c.reading (rawTemp (b1.setWidth 32) (b2.setWidth 32) (b3.setWidth 32))).product1 =
      (2 * distance c b1 b2 + b3.toNat / 128) * c.digT2.toInt ∧
    (c.reading (rawTemp (b1.setWidth 32) (b2.setWidth 32) (b3.setWidth 32))).square = distance c b1 b2 ^ 2 := by
  have raw := rawTemp_toInt b1 b2 b3
  have half : (rawTemp (b1.setWidth 32) (b2.setWidth 32) (b3.setWidth 32)).toInt / 2 ^ 3 - c.digT1.toInt * 2 =
      2 * distance c b1 b2 + b3.toNat / 128 := by
    unfold distance
    omega
  have whole : (rawTemp (b1.setWidth 32) (b2.setWidth 32) (b3.setWidth 32)).toInt / 2 ^ 4 - c.digT1.toInt =
      distance c b1 b2 := by
    unfold distance
    omega
  constructor
  · rw [← half]
    rfl
  · rw [← whole, pow_two]
    rfl

/-- Celsius gives -6666 exactly if the bytes and the calibration solve `MinusSixtySix`. -/
theorem temp_error_iff (c : Calibration) (b1 b2 b3 : U8) :
    (c.temp (rawTemp (b1.setWidth 32) (b2.setWidth 32) (b3.setWidth 32))).toInt = -6666 ↔
      MinusSixtySix c b1 b2 b3 := by
  obtain ⟨product, square⟩ := reading_products c b1 b2 b3
  have first := product1_wraps c (rawTemp (b1.setWidth 32) (b2.setWidth 32) (b3.setWidth 32))
  have second := product2_wraps c (rawTemp (b1.setWidth 32) (b2.setWidth 32) (b3.setWidth 32))
  rw [product] at first
  rw [square] at second
  have quadratic : quadratic c b1 b2 =
      (c.product2 (rawTemp (b1.setWidth 32) (b2.setWidth 32) (b3.setWidth 32))).toInt / 2 ^ 14 := by
    rw [second]
    rfl
  -- both sides agree modulo 2^32, and a wrap of `product1` would miss the window
  have residue := Int.bmod_emod (x := (2 * distance c b1 b2 + b3.toNat / 128) * c.digT2.toInt) (m := 2 ^ 32)
  rw [← first] at residue
  have bound1 := toInt_bounds (c.product1 (rawTemp (b1.setWidth 32) (b2.setWidth 32) (b3.setWidth 32)))
  have bound2 := toInt_bounds (c.product2 (rawTemp (b1.setWidth 32) (b2.setWidth 32) (b3.setWidth 32)))
  rw [c.temp_toInt]
  unfold MinusSixtySix
  rw [quadratic]
  omega

/-- No temperature in Celsius is `BMP280_ERROR` in Fahrenheit. -/
theorem fahrenheit_ne_error (temp : Int) : (temp * 9).tdiv 5 + 3200 ≠ -6666 := by
  have sign : Int.sign 5 = 1 := rfl
  rw [Int.tdiv_eq_ediv]
  split <;> omega

/-- `BMP280_ERROR` is a temperature in Celsius, and in no other unit. -/
theorem convert_error_iff (c : Calibration) (b1 b2 b3 : U8) (unit : TempUnit) :
    unit.convert (c.temp (rawTemp (b1.setWidth 32) (b2.setWidth 32) (b3.setWidth 32))) = bmp280Error ↔
      unit ≠ .kelvin ∧ unit ≠ .fahrenheit ∧ MinusSixtySix c b1 b2 b3 := by
  have error : bmp280Error.toInt = -6666 := by decide
  obtain ⟨low, high⟩ := temp_bounds c (rawTemp (b1.setWidth 32) (b2.setWidth 32) (b3.setWidth 32))
  have celsius := temp_error_iff c b1 b2 b3
  rw [← BitVec.toInt_inj, error, convert_toInt unit low high]
  split
  · next h => simp [celsius, h, TempUnit.celsius, TempUnit.kelvin, TempUnit.fahrenheit]
  split
  · next h => simp [h, fahrenheit_ne_error]
  split
  · next h =>
    simp only [h, ne_eq, not_true, false_and, iff_false]
    omega
  · next h2 h3 => simp [celsius, h2, h3]

/-- Every read succeeds, in Celsius, at -66.66 °C. -/
def Mistaken (x : Reads) (c : Calibration) (unit : TempUnit) : Prop :=
  unit ≠ .kelvin ∧ unit ≠ .fahrenheit ∧
    ∃ b1 b2 b3, x = ⟨some b1, some b2, some b3⟩ ∧ MinusSixtySix c b1 b2 b3

/-- **Errors and readings** are told apart, by `bmp280_read_temperature` and by
`char_device_read`, except at -66.66 °C in Celsius. -/
theorem error_iff (x : Reads) (c : Calibration) (unit : TempUnit) (count lost : Nat) :
    (((bmp280ReadTemperature x.bus c unit : Id S32) = bmp280Error ↔ x.Failed) ∧
      ((charDeviceRead x.bus c unit count lost : Id (Int × List Char)).1 = -1 ↔ x.Failed)) ↔
    ¬ Mistaken x c unit := by
  rw [Reads.charDeviceRead_error, and_self]
  rcases x.failed_or_read with failed | ⟨b1, b2, b3, rfl⟩
  · have told : ¬ Mistaken x c unit := by
      rintro ⟨-, -, b1, b2, b3, rfl, -⟩
      simp [Reads.Failed] at failed
    simp [Reads.readTemperature_failed failed, failed, told]
  · have read : ¬ (⟨some b1, some b2, some b3⟩ : Reads).Failed := by simp [Reads.Failed]
    rw [Reads.readTemperature_read, convert_error_iff]
    simp [Mistaken, read]

example : MinusSixtySix ⟨27504, 26435, 0⟩ 0x37 0xCB 0x80 := by decide

/-- A sensor at -66.66 °C. -/
theorem arcticReads_mistaken : ¬ ∀ (x : Reads) (c : Calibration) (unit : TempUnit) (count lost : Nat),
    ((bmp280ReadTemperature x.bus c unit : Id S32) = bmp280Error ↔ x.Failed) ∧
      ((charDeviceRead x.bus c unit count lost : Id (Int × List Char)).1 = -1 ↔ x.Failed) := by
  intro told
  have error : (bmp280ReadTemperature (⟨some 0x37, some 0xCB, some 0x80⟩ : Reads).bus ⟨27504, 26435, 0⟩ .celsius : Id S32) =
      bmp280Error := by
    rw [Reads.readTemperature_read]
    show @Eq S32 _ _
    decide +kernel
  have failed := (told ⟨some 0x37, some 0xCB, some 0x80⟩ ⟨27504, 26435, 0⟩ .celsius 10 0).1.1 error
  simp [Reads.Failed] at failed

end Beaglebone.CharDevice
