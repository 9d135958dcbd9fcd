import Mathlib.Tactic.Linarith
import Mathlib.Tactic.LinearCombination
import Mathlib.Tactic.Ring
import Mathlib.Tactic.NormNum
import Mathlib.Tactic.Positivity
import Mathlib.Algebra.Order.Ring.Abs
import Mathlib.Algebra.Order.Field.Rat
import Beaglebone.Bmp280.Overflow

/-!
# What the shifts of the compensation formula cost

`Reading.exact` is the formula of `bmp280_read_temperature` without rounding. Each
`>>` of the code rounds down, and two of them do so before a product with a
calibration word of 16 bits. As long as the products fit in an `s32`, what is lost
stays below two hundredths of a degree for every sample and every calibration
(`temperature_accurate`): the bound on the third product also bounds the error that
rounding `raw_temp >> 4` makes in the square.
-/

namespace Beaglebone.Bmp280

open Machine

namespace Reading

variable (r : Reading)

/-- The two terms, without rounding. -/
def exactVar1 : ℚ := (r.raw / 2 ^ 3 - r.digT1 * 2) * r.digT2 / 2 ^ 11
def exactVar2 : ℚ := (r.raw / 2 ^ 4 - r.digT1) ^ 2 / 2 ^ 12 * r.digT3 / 2 ^ 14

/-- Hundredths of a degree Celsius. -/
def exact : ℚ := (r.exactVar1 + r.exactVar2) * 5 / 2 ^ 8

variable {r}

/-- A right shift and the bits that it drops. -/
theorem shifted (x : Int) {m : Int} (pos : 0 < m) : ∃ i, x = m * (x / m) + i ∧ 0 ≤ i ∧ i < m :=
  ⟨x % m, (Int.mul_ediv_add_emod x m).symm, Int.emod_nonneg x (Int.ne_of_gt pos), Int.emod_lt_of_pos x pos⟩

/-- What the shift of `raw_temp` and that of the product lose in `var1`. -/
theorem Stored.var1_error (h : r.Stored) :
    0 ≤ (r.raw - 16 * r.digT1) * r.digT2 - 2 ^ 14 * r.var1 ∧
      (r.raw - 16 * r.digT1) * r.digT2 - 2 ^ 14 * r.var1 < 29 * 2 ^ 14 := by
  obtain ⟨low2, high2⟩ := h.digT2
  obtain ⟨i, raw, i0, i8⟩ := shifted r.raw (m := 2 ^ 3) (by norm_num)
  obtain ⟨p, product, p0, p1⟩ := shifted r.product1 (m := 2 ^ 11) (by norm_num)
  have difference : r.raw = 8 * (r.difference1 + r.digT1 * 2) + i := by unfold Reading.difference1; omega
  have defined : r.product1 = r.difference1 * r.digT2 := rfl
  have var1 : r.product1 = 2 ^ 11 * r.var1 + p := product
  have lost : (r.raw - 16 * r.digT1) * r.digT2 - 2 ^ 14 * r.var1 = 8 * p + i * r.digT2 := by
    linear_combination r.digT2 * difference - 8 * defined + 8 * var1
  have most : i * r.digT2 ≤ 7 * r.digT2 := Int.mul_le_mul_of_nonneg_right (by omega) low2
  have least : 0 ≤ i * r.digT2 := Int.mul_nonneg i0 low2
  rw [lost]
  constructor <;> omega

/-- The third product bounds the distance from `dig_T1`, weighted with `dig_T3`. -/
theorem Stored.weighted (h : r.Stored) (fits : r.ProductsFit) :
    |r.difference2| * r.digT3 < 3 * 2 ^ 28 + 2 ^ 13 := by
  obtain ⟨low3, high3⟩ := h.digT3
  obtain ⟨s, square, s0, s1⟩ := shifted r.square (m := 2 ^ 12) (by norm_num)
  have product2 : r.product2 = r.square / 2 ^ 12 * r.digT3 := rfl
  have defined : r.square = r.difference2 * r.difference2 := rfl
  have bound := fits.product2.2
  -- 2^15 |d| ≤ d² + 2^28
  have mean : 2 ^ 15 * |r.difference2| ≤ r.square + 2 ^ 28 := by
    have nonneg := mul_self_nonneg (|r.difference2| - 2 ^ 14)
    have same := abs_mul_abs_self r.difference2
    nlinarith
  have weighted := Int.mul_le_mul_of_nonneg_right mean low3
  have rest : s * r.digT3 ≤ 2 ^ 12 * r.digT3 := Int.mul_le_mul_of_nonneg_right (by omega) low3
  have whole : r.square * r.digT3 = 2 ^ 12 * r.product2 + s * r.digT3 := by
    linear_combination r.digT3 * square - 2 ^ 12 * product2
  nlinarith

/-- What the three shifts lose in `var2`. -/
theorem Stored.var2_error (h : r.Stored) (fits : r.ProductsFit) :
    -23 * 2 ^ 34 < (r.raw - 16 * r.digT1) ^ 2 * r.digT3 - 2 ^ 34 * r.var2 ∧
      (r.raw - 16 * r.digT1) ^ 2 * r.digT3 - 2 ^ 34 * r.var2 < 28 * 2 ^ 34 := by
  obtain ⟨low3, high3⟩ := h.digT3
  obtain ⟨j, raw, j0, j16⟩ := shifted r.raw (m := 2 ^ 4) (by norm_num)
  obtain ⟨s, square, s0, s1⟩ := shifted r.square (m := 2 ^ 12) (by norm_num)
  obtain ⟨p, product, p0, p1⟩ := shifted r.product2 (m := 2 ^ 14) (by norm_num)
  have difference : r.raw = 16 * (r.difference2 + r.digT1) + j := by unfold Reading.difference2; omega
  have product2 : r.product2 = r.square / 2 ^ 12 * r.digT3 := rfl
  have defined : r.square = r.difference2 * r.difference2 := rfl
  have var2 : r.product2 = 2 ^ 14 * r.var2 + p := product
  have lost : (r.raw - 16 * r.digT1) ^ 2 * r.digT3 - 2 ^ 34 * r.var2 =
      2 ^ 20 * p + 256 * (s * r.digT3) + 32 * (j * (r.difference2 * r.digT3)) + j * j * r.digT3 := by
    linear_combination (r.raw - 16 * r.digT1 + 16 * r.difference2 + j) * r.digT3 * difference -
      256 * r.digT3 * defined + 256 * r.digT3 * square - 2 ^ 20 * product2 + 2 ^ 20 * var2
  have bits : 0 ≤ s * r.digT3 ∧ s * r.digT3 ≤ 2 ^ 12 * r.digT3 :=
    ⟨Int.mul_nonneg s0 low3, Int.mul_le_mul_of_nonneg_right (by omega) low3⟩
  have few : 0 ≤ j * j * r.digT3 ∧ j * j * r.digT3 ≤ 225 * r.digT3 :=
    ⟨by positivity, Int.mul_le_mul_of_nonneg_right (by nlinarith) low3⟩
  have cross : |j * (r.difference2 * r.digT3)| ≤ 15 * (3 * 2 ^ 28 + 2 ^ 13) := by
    rw [abs_mul, abs_mul, abs_of_nonneg j0, abs_of_nonneg low3]
    have weighted := h.weighted fits
    exact mul_le_mul (by omega) weighted.le (by positivity) (by norm_num)
  obtain ⟨least, most⟩ := abs_le.1 cross
  rw [lost]
  constructor <;> omega

/-- **The error of the formula**, in Celsius. -/
theorem Stored.temp_error (h : r.Stored) (fits : r.ProductsFit) : r.temp - 1 < r.exact ∧ r.exact < r.temp + 2 := by
  obtain ⟨low1, high1⟩ := h.var1_error
  obtain ⟨low2, high2⟩ := h.var2_error fits
  obtain ⟨t, temp, t0, t1⟩ := shifted ((r.var1 + r.var2) * 5 + 128) (m := 2 ^ 8) (by norm_num)
  have rounded : (r.var1 + r.var2) * 5 + 128 = 2 ^ 8 * r.temp + t := temp
  have scaled : r.exact * 2 ^ 42 = (5 * (2 ^ 20 * ((r.raw - 16 * r.digT1) * r.digT2) +
      (r.raw - 16 * r.digT1) ^ 2 * r.digT3) : Int) := by
    unfold Reading.exact exactVar1 exactVar2
    push_cast
    ring
  generalize (r.raw - 16 * r.digT1) * r.digT2 = term1 at low1 high1 scaled
  generalize (r.raw - 16 * r.digT1) ^ 2 * r.digT3 = term2 at low2 high2 scaled
  have below : 2 ^ 42 * (r.temp - 1) < 5 * (2 ^ 20 * term1 + term2) := by omega
  have above : 5 * (2 ^ 20 * term1 + term2) < 2 ^ 42 * (r.temp + 2) := by omega
  have below' : ((2 ^ 42 * (r.temp - 1) : Int) : ℚ) < (5 * (2 ^ 20 * term1 + term2) : Int) := by exact_mod_cast below
  have above' : ((5 * (2 ^ 20 * term1 + term2) : Int) : ℚ) < (2 ^ 42 * (r.temp + 2) : Int) := by exact_mod_cast above
  rw [← scaled] at below' above'
  push_cast at below' above'
  constructor <;> linarith

/-- The exact temperature in `g_unit`. -/
def exactIn (r : Reading) (unit : TempUnit) : ℚ :=
  if unit = .celsius then r.exact
  else if unit = .fahrenheit then r.exact * 9 / 5 + 3200
  else if unit = .kelvin then r.exact + 27315
  else r.exact

/-- The division of the Fahrenheit conversion rounds towards zero. -/
theorem fahrenheit_error (t : Int) :
    (t * 9 : ℚ) / 5 - 1 < ((t * 9).tdiv 5 : Int) ∧ (((t * 9).tdiv 5 : Int) : ℚ) < t * 9 / 5 + 1 := by
  have fifth := tdiv_five (t * 9)
  have below : t * 9 - 5 < 5 * (t * 9).tdiv 5 := by omega
  have above : 5 * (t * 9).tdiv 5 < t * 9 + 5 := by
    have sign : Int.sign 5 = 1 := rfl
    rw [Int.tdiv_eq_ediv]
    split <;> omega
  have below' : ((t * 9 - 5 : Int) : ℚ) < (5 * (t * 9).tdiv 5 : Int) := by exact_mod_cast below
  have above' : ((5 * (t * 9).tdiv 5 : Int) : ℚ) < (t * 9 + 5 : Int) := by exact_mod_cast above
  push_cast at below' above'
  constructor <;> linarith

/-- The error in every unit: a hundredth is 9/5 of one in Fahrenheit. -/
theorem Stored.result_error (h : r.Stored) (fits : r.ProductsFit) (unit : TempUnit) :
    if unit = .fahrenheit then r.result unit - 3 < r.exactIn unit ∧ r.exactIn unit < r.result unit + 5
    else r.result unit - 1 < r.exactIn unit ∧ r.exactIn unit < r.result unit + 2 := by
  obtain ⟨below, above⟩ := h.temp_error fits
  obtain ⟨low, high⟩ := fahrenheit_error r.temp
  unfold Reading.exactIn Reading.result
  by_cases f : unit = .fahrenheit
  · subst f
    simp only [show TempUnit.fahrenheit ≠ TempUnit.celsius by decide, if_true, if_false]
    push_cast
    constructor <;> linarith
  · simp only [f, if_false]
    split
    · exact ⟨below, above⟩
    split
    · push_cast
      constructor <;> linarith
    · exact ⟨below, above⟩

end Reading

/-- **Accuracy.** For every sample and every calibration that `bmp280_init` stores
whose products fit, `bmp280_read_temperature` returns less than one hundredth of a
degree above what the formula gives without rounding, and less than two below; in
Fahrenheit, less than three above and five below. -/
theorem temperature_accurate (x : Chip) (old : Calibration) (unit : TempUnit) (fits : x.reading.ProductsFit) :
    if unit = .fahrenheit then
      (x.temperature old unit).toInt - 3 < x.reading.exactIn unit ∧
        x.reading.exactIn unit < (x.temperature old unit).toInt + 5
    else (x.temperature old unit).toInt - 1 < x.reading.exactIn unit ∧
      x.reading.exactIn unit < (x.temperature old unit).toInt + 2 := by
  have value : (x.temperature old unit).toInt = x.reading.result unit := by
    rw [x.temperature_eq]
    exact result_toInt fits unit
  rw [value]
  exact x.stored.result_error fits unit

/-- A sensor at 25.23 degrees. -/
def mildChip : Chip where
  w1 := 27504
  w2 := 26435
  w3 := 1000
  b1 := 0x7E
  b2 := 0xED
  b3 := 0x00

theorem mildChip_accurate : (mildChip.temperature ⟨0, 0, 0⟩ .celsius).toInt - 1 < mildChip.reading.exactIn .celsius ∧
    mildChip.reading.exactIn .celsius < (mildChip.temperature ⟨0, 0, 0⟩ .celsius).toInt + 2 := by
  have fits : mildChip.reading.ProductsFit := ⟨by decide +kernel, by decide +kernel, by decide +kernel⟩
  exact temperature_accurate mildChip ⟨0, 0, 0⟩ .celsius fits

end Beaglebone.Bmp280
