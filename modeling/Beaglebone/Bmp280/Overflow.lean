import Mathlib.Algebra.Ring.Nat
import Beaglebone.Bmp280.Compensation

/-!
# The compensation formula in 32 bits

`Reading` is the formula of `bmp280_read_temperature` over unbounded integers, with
every value it computes on the way (`Reading.values`). The words that `bmp280_init`
stores and a 20-bit sample leave the range of an `s32` only in three products; when
these fit, everything fits and the code computes the formula
(`compensation_fits_iff`). Whatever the products do, a temperature has at most five
digits (`temp_bounds`).
-/

namespace Beaglebone.Bmp280

open Machine

/-- The value of an `s32`. -/
def FitsS32 (v : Int) : Prop := -2 ^ 31 ≤ v ∧ v < 2 ^ 31

instance (v : Int) : Decidable (FitsS32 v) := inferInstanceAs (Decidable (_ ∧ _))

/-- C's division by 5 is the one that rounds down, or one more. -/
theorem tdiv_five (a : Int) : a / 5 ≤ a.tdiv 5 ∧ a.tdiv 5 ≤ a / 5 + 1 := by
  have sign : Int.sign 5 = 1 := rfl
  rw [Int.tdiv_eq_ediv]
  split <;> omega

/-- `raw_temp` and the calibration, as integers. -/
structure Reading where
  raw : Int
  digT1 : Int
  digT2 : Int
  digT3 : Int

namespace Reading

variable (r : Reading)

def difference1 : Int := r.raw / 2 ^ 3 - r.digT1 * 2
def product1 : Int := r.difference1 * r.digT2
def var1 : Int := r.product1 / 2 ^ 11
def difference2 : Int := r.raw / 2 ^ 4 - r.digT1
def square : Int := r.difference2 * r.difference2
def product2 : Int := r.square / 2 ^ 12 * r.digT3
def var2 : Int := r.product2 / 2 ^ 14
def temp : Int := ((r.var1 + r.var2) * 5 + 128) / 2 ^ 8

/-- The temperature in `g_unit`. -/
def result (unit : TempUnit) : Int :=
  if unit = .celsius then r.temp
  else if unit = .fahrenheit then (r.temp * 9).tdiv 5 + 3200
  else if unit = .kelvin then r.temp + 27315
  else r.temp

/-- The values of the conversion. -/
def converted (unit : TempUnit) : List Int :=
  if unit = .fahrenheit then [r.temp * 9, (r.temp * 9).tdiv 5, r.result unit] else [r.result unit]

/-- Every value that the function computes. -/
def values (unit : TempUnit) : List Int :=
  [r.raw / 2 ^ 3, r.digT1 * 2, r.difference1, r.product1, r.var1, r.raw / 2 ^ 4, r.difference2, r.square,
    r.square / 2 ^ 12, r.product2, r.var2, r.var1 + r.var2, (r.var1 + r.var2) * 5,
    (r.var1 + r.var2) * 5 + 128, r.temp] ++ r.converted unit

/-- The three products fit. -/
structure ProductsFit : Prop where
  product1 : FitsS32 r.product1
  square : FitsS32 r.square
  product2 : FitsS32 r.product2

/-- Three bytes of `raw_temp` and three unsigned 16-bit words. -/
structure Stored : Prop where
  raw : 0 ≤ r.raw ∧ r.raw < 2 ^ 20
  digT1 : 0 ≤ r.digT1 ∧ r.digT1 < 2 ^ 16
  digT2 : 0 ≤ r.digT2 ∧ r.digT2 < 2 ^ 16
  digT3 : 0 ≤ r.digT3 ∧ r.digT3 < 2 ^ 16

variable {r}

theorem Stored.difference1 (h : r.Stored) : -2 ^ 17 ≤ r.difference1 ∧ r.difference1 < 2 ^ 17 := by
  have raw := h.raw
  have digT1 := h.digT1
  unfold Reading.difference1
  omega

theorem Stored.difference2 (h : r.Stored) : -2 ^ 16 < r.difference2 ∧ r.difference2 < 2 ^ 16 := by
  have raw := h.raw
  have digT1 := h.digT1
  unfold Reading.difference2
  omega

/-- The shifts after the products leave a temperature of at most five digits. -/
theorem ProductsFit.bounds (h : r.ProductsFit) : (-2 ^ 20 ≤ r.var1 ∧ r.var1 < 2 ^ 20) ∧
    (-2 ^ 17 ≤ r.var2 ∧ r.var2 < 2 ^ 17) ∧ -23040 ≤ r.temp ∧ r.temp ≤ 23040 := by
  have fits1 := h.product1
  have fits2 := h.product2
  unfold FitsS32 at fits1 fits2
  have var1 : -2 ^ 20 ≤ r.var1 ∧ r.var1 < 2 ^ 20 := by unfold Reading.var1; omega
  have var2 : -2 ^ 17 ≤ r.var2 ∧ r.var2 < 2 ^ 17 := by unfold Reading.var2; omega
  refine ⟨var1, var2, ?_⟩
  unfold Reading.temp
  omega

/-- The conversion of a temperature fits. -/
theorem converted_fits (low : -23040 ≤ r.temp) (high : r.temp ≤ 23040) (unit : TempUnit) :
    ∀ v ∈ r.converted unit, FitsS32 v := by
  have fifth := tdiv_five (r.temp * 9)
  have result : FitsS32 (r.result unit) := by
    unfold FitsS32 Reading.result
    repeat' split
    all_goals omega
  unfold Reading.converted
  split
  · simp only [List.mem_cons, List.not_mem_nil, or_false]
    rintro v (rfl | rfl | rfl)
    · unfold FitsS32; omega
    · unfold FitsS32; omega
    · exact result
  · simp only [List.mem_singleton]
    rintro v rfl
    exact result

/-- **Where 32 bits do not suffice**: only in the three products. -/
theorem Stored.values_fit_iff (h : r.Stored) (unit : TempUnit) :
    (∀ v ∈ r.values unit, FitsS32 v) ↔ r.ProductsFit := by
  constructor
  · intro fits
    constructor <;> exact fits _ (by simp [Reading.values])
  · intro fits v mem
    obtain ⟨var1, var2, low, high⟩ := fits.bounds
    have difference1 := h.difference1
    have difference2 := h.difference2
    have raw := h.raw
    have digT1 := h.digT1
    have square := fits.square
    rcases List.mem_append.1 mem with mem | mem
    · simp only [List.mem_cons, List.not_mem_nil, or_false] at mem
      rcases mem with rfl | rfl | rfl | rfl | rfl | rfl | rfl | rfl | rfl | rfl | rfl | rfl | rfl | rfl | rfl
      case inr.inr.inr.inl => exact fits.product1
      case inr.inr.inr.inr.inr.inr.inr.inl => exact fits.square
      case inr.inr.inr.inr.inr.inr.inr.inr.inr.inl => exact fits.product2
      all_goals unfold FitsS32 at *; omega
    · exact converted_fits low high unit v mem

end Reading

/-! ## What the code computes -/

/-- The arguments of the formula, as integers. -/
def Calibration.reading (c : Calibration) (raw : S32) : Reading :=
  ⟨raw.toInt, c.digT1.toInt, c.digT2.toInt, c.digT3.toInt⟩

section Code

variable {c : Calibration} {raw : S32}

theorem toInt_double (x : S32) : (x <<< 1).toInt = (x.toInt * 2).bmod (2 ^ 32) := by
  rw [BitVec.toInt_shiftLeft, Nat.shiftLeft_eq, BitVec.toInt_eq_toNat_bmod]
  simp

/-- The products of the code are those of the formula, wrapped. -/
theorem product1_wraps (c : Calibration) (raw : S32) :
    (c.product1 raw).toInt = (c.reading raw).product1.bmod (2 ^ 32) := by
  unfold Calibration.product1
  rw [BitVec.toInt_mul, BitVec.toInt_sub, toInt_sshiftRight, toInt_double, Int.sub_bmod_bmod, Int.bmod_mul_bmod]
  rfl

theorem square_wraps (c : Calibration) (raw : S32) :
    ((raw.sshiftRight 4 - c.digT1) * (raw.sshiftRight 4 - c.digT1)).toInt = (c.reading raw).square.bmod (2 ^ 32) := by
  rw [BitVec.toInt_mul, BitVec.toInt_sub, toInt_sshiftRight, Int.bmod_mul_bmod, Int.mul_bmod_bmod]
  rfl

theorem product2_wraps (c : Calibration) (raw : S32) : (c.product2 raw).toInt =
    ((c.reading raw).square.bmod (2 ^ 32) / 2 ^ 12 * c.digT3.toInt).bmod (2 ^ 32) := by
  unfold Calibration.product2
  rw [BitVec.toInt_mul, toInt_sshiftRight, square_wraps]

theorem bmod_of_fits {v : Int} (h : FitsS32 v) : v.bmod (2 ^ 32) = v := Int.bmod_eq_of_le h.1 h.2

/-- Whatever is stored, and whether or not the products wrap. -/
theorem temp_bounds (c : Calibration) (raw : S32) :
    -23040 ≤ (c.temp raw).toInt ∧ (c.temp raw).toInt ≤ 23040 := by
  have bound1 := toInt_bounds (c.product1 raw)
  have bound2 := toInt_bounds (c.product2 raw)
  rw [c.temp_toInt]
  omega

/-- `temp * 9 / 5 + 3200` and `temp + 27315` do not wrap. -/
theorem convert_toInt (unit : TempUnit) {temp : S32} (low : -23040 ≤ temp.toInt) (high : temp.toInt ≤ 23040) :
    (unit.convert temp).toInt =
      if unit = .celsius then temp.toInt
      else if unit = .fahrenheit then (temp.toInt * 9).tdiv 5 + 3200
      else if unit = .kelvin then temp.toInt + 27315
      else temp.toInt := by
  have nine : (9 : S32).toInt = 9 := by decide
  have five : (5 : S32).toInt = 5 := by decide
  have freezing : (3200 : S32).toInt = 3200 := by decide
  have zeroC : (27315 : S32).toInt = 27315 := by decide
  have scaled : (temp * 9).toInt = temp.toInt * 9 := by
    rw [toInt_mul_of_fits] <;> rw [nine] <;> omega
  have fifth : ((temp * 9).sdiv 5).toInt = (temp.toInt * 9).tdiv 5 := by
    rw [BitVec.toInt_sdiv_of_ne_or_ne _ _ (.inr (by decide)), scaled, five]
  have quotient := tdiv_five (temp.toInt * 9)
  unfold TempUnit.convert
  split
  · rfl
  split
  · rw [toInt_add_of_fits, fifth, freezing] <;> rw [fifth, freezing] <;> omega
  split
  · rw [toInt_add_of_fits, zeroC] <;> rw [zeroC] <;> omega
  · rfl

/-- So a reading has at most five digits in every unit. -/
theorem convert_bounds (c : Calibration) (raw : S32) (unit : TempUnit) :
    -38272 ≤ (unit.convert (c.temp raw)).toInt ∧ (unit.convert (c.temp raw)).toInt ≤ 50355 := by
  obtain ⟨low, high⟩ := temp_bounds c raw
  have fifth := tdiv_five ((c.temp raw).toInt * 9)
  rw [convert_toInt unit low high]
  split
  · omega
  split
  · omega
  split <;> omega

/-- While the products fit, the code computes the formula. -/
theorem result_toInt (fits : (c.reading raw).ProductsFit) (unit : TempUnit) :
    (unit.convert (c.temp raw)).toInt = (c.reading raw).result unit := by
  have product1 := (product1_wraps c raw).trans (bmod_of_fits fits.product1)
  have product2 : (c.product2 raw).toInt = (c.reading raw).product2 := by
    rw [product2_wraps, bmod_of_fits fits.square]
    exact bmod_of_fits fits.product2
  have temp : (c.temp raw).toInt = (c.reading raw).temp := by
    rw [c.temp_toInt, product1, product2]; rfl
  obtain ⟨low, high⟩ := temp_bounds c raw
  rw [convert_toInt unit low high, temp]
  rfl

end Code

/-! ## A sensor -/

def Chip.reading (x : Chip) : Reading := x.unsigned.reading x.rawTemp

/-- `raw_temp` is the number of its three bytes, less the low four bits. -/
theorem rawTemp_toInt (b1 b2 b3 : U8) : (rawTemp (b1.setWidth 32) (b2.setWidth 32) (b3.setWidth 32)).toInt =
    (65536 * b1.toNat + 256 * b2.toNat + b3.toNat : Nat) / 2 ^ 4 := by
  have lt1 := b1.isLt
  have lt2 := b2.isLt
  have lt3 := b3.isLt
  have low : b2.toNat <<< 8 ||| b3.toNat = 256 * b2.toNat + b3.toNat := by
    rw [← Nat.shiftLeft_add_eq_or_of_lt lt3, Nat.shiftLeft_eq, Nat.mul_comm]
  have bytes : b1.toNat <<< 16 ||| (b2.toNat <<< 8 ||| b3.toNat) =
      65536 * b1.toNat + 256 * b2.toNat + b3.toNat := by
    rw [low, ← Nat.shiftLeft_add_eq_or_of_lt (by omega), Nat.shiftLeft_eq]
    omega
  have word : (b1.setWidth 32 <<< 16 ||| b2.setWidth 32 <<< 8 ||| b3.setWidth 32 : S32).toNat =
      65536 * b1.toNat + 256 * b2.toNat + b3.toNat := by
    have shift1 : b1.toNat <<< 16 % 2 ^ 32 = b1.toNat <<< 16 := Nat.mod_eq_of_lt (by rw [Nat.shiftLeft_eq]; omega)
    have shift2 : b2.toNat <<< 8 % 2 ^ 32 = b2.toNat <<< 8 := Nat.mod_eq_of_lt (by rw [Nat.shiftLeft_eq]; omega)
    rw [← bytes, BitVec.or_assoc, BitVec.toNat_or, BitVec.toNat_or, BitVec.toNat_shiftLeft, BitVec.toNat_shiftLeft,
      BitVec.toNat_setWidth_of_le (by decide), BitVec.toNat_setWidth_of_le (by decide),
      BitVec.toNat_setWidth_of_le (by decide), shift1, shift2]
  unfold rawTemp
  rw [toInt_sshiftRight, BitVec.toInt_eq_toNat_of_lt (by omega), word]

theorem Chip.rawTemp_bounds (x : Chip) : 0 ≤ x.rawTemp.toInt ∧ x.rawTemp.toInt < 2 ^ 20 := by
  have lt1 := x.b1.isLt
  have lt2 := x.b2.isLt
  have lt3 := x.b3.isLt
  unfold Chip.rawTemp
  rw [rawTemp_toInt]
  omega

theorem Chip.stored (x : Chip) : x.reading.Stored := by
  have lt1 := x.w1.isLt
  have lt2 := x.w2.isLt
  have lt3 := x.w3.isLt
  have word1 : x.reading.digT1 = x.w1.toNat := toInt_zeroExtend x.w1
  have word2 : x.reading.digT2 = x.w2.toNat := toInt_zeroExtend x.w2
  have word3 : x.reading.digT3 = x.w3.toNat := toInt_zeroExtend x.w3
  exact ⟨x.rawTemp_bounds, by omega, by omega, by omega⟩

/-- `bmp280_read_temperature` after `bmp280_init`. -/
def Chip.temperature (x : Chip) (old : Calibration) (unit : TempUnit) : S32 := Id.run do
  let (_, c) ← bmp280Init x.bus old
  bmp280ReadTemperature x.bus c unit

theorem Chip.temperature_eq (x : Chip) (old : Calibration) (unit : TempUnit) :
    x.temperature old unit = unit.convert (x.unsigned.temp x.rawTemp) := by
  unfold Chip.temperature bmp280ReadTemperature
  rw [x.bmp280Init_eq, x.readRawTemp_eq]
  rfl

/-- **Overflow.** For every sample and every calibration that `bmp280_init` stores,
all values of the computation fit exactly if the three products do, and then the
code computes the formula of the unbounded integers. -/
theorem compensation_fits_iff (x : Chip) (old : Calibration) (unit : TempUnit) :
    ((∀ v ∈ x.reading.values unit, FitsS32 v) ↔ x.reading.ProductsFit) ∧
    (x.reading.ProductsFit → (x.temperature old unit).toInt = x.reading.result unit) := by
  refine ⟨x.stored.values_fit_iff unit, fun fits => ?_⟩
  rw [x.temperature_eq]
  exact result_toInt fits unit

/-- The largest sample, and the largest word in the middle. -/
def hotChip : Chip where
  w1 := 0
  w2 := 65535
  w3 := 0
  b1 := 0xFF
  b2 := 0xFF
  b3 := 0xFF

/-- Its first product is 8589737985. -/
theorem hotChip_overflows : ¬ ∀ (x : Chip) (old : Calibration) (unit : TempUnit),
    (∀ v ∈ x.reading.values unit, FitsS32 v) ∧ (x.temperature old unit).toInt = x.reading.result unit := by
  intro fits
  have fits := (hotChip.stored.values_fit_iff .celsius).1 (fits hotChip ⟨0, 0, 0⟩ .celsius).1
  have product : ¬ FitsS32 hotChip.reading.product1 := by decide +kernel
  exact product fits.product1

end Beaglebone.Bmp280
