import Beaglebone.Bmp280.Sampling
import Beaglebone.Kernel.DtI2c

/-!
# Two drivers, one sensor

`kernel/019_dt_i2c` sign-extends `dig_T2` and `dig_T3`, `bmp280_init` does not. The
two drivers read the same temperature from a sensor whose words have the top bit
clear, and from no other (`compensation_agrees_iff`): for any other one there are
three register bytes for which an error of 2^16 in a factor is not shifted out.
-/

namespace Beaglebone.Bmp280

open Machine Kernel

/-- A sensor: its three calibration words, least significant byte first, and its
temperature registers. -/
structure Chip where
  w1 : U16
  w2 : U16
  w3 : U16
  b1 : U8
  b2 : U8
  b3 : U8

def Chip.register (x : Chip) (a : U8) : U8 :=
  if a = 0x88 then x.w1.setWidth 8
  else if a = 0x89 then (x.w1 >>> 8).setWidth 8
  else if a = 0x8A then x.w2.setWidth 8
  else if a = 0x8B then (x.w2 >>> 8).setWidth 8
  else if a = 0x8C then x.w3.setWidth 8
  else if a = 0x8D then (x.w3 >>> 8).setWidth 8
  else if a = regId then bmp280Id
  else if a = regTempMsb then x.b1
  else if a = regTempLsb then x.b2
  else if a = regTempXlsb then x.b3
  else 0

/-- Reads that all succeed. -/
def Chip.bus (x : Chip) : Bus Id where
  cottiI2cRead a := (x.register a).setWidth 32
  cottiI2cWrite _ _ := (0 : S32)

/-- The same through the SMBus functions: a word is `LSB | MSB << 8`. -/
def Chip.smbus (x : Chip) : DtI2c.Smbus Id where
  readByteData a := (x.register a).setWidth 32
  readWordData a := (x.register a).setWidth 32 ||| (x.register (a + 1)).setWidth 32 <<< 8

/-- `bmp280_read_temperature` after `bmp280_init`, in Celsius. -/
def Chip.bmp280 (x : Chip) (old : Calibration) : S32 := Id.run do
  let (_, c) ← bmp280Init x.bus old
  bmp280ReadTemperature x.bus c .celsius

/-- `read_temperature` after `i2c_probe`. -/
def Chip.dtI2c (x : Chip) : S32 := Id.run do
  let c ← DtI2c.i2cProbe x.smbus
  DtI2c.readTemperature x.smbus c

def Chip.rawTemp (x : Chip) : S32 :=
  Bmp280.rawTemp (x.b1.setWidth 32) (x.b2.setWidth 32) (x.b3.setWidth 32)

/-- `dig_T1` unsigned, `dig_T2` and `dig_T3` in two's complement. -/
def Chip.signed (x : Chip) : Calibration := ⟨x.w1.setWidth 32, x.w2.signExtend 32, x.w3.signExtend 32⟩

/-- All three unsigned. -/
def Chip.unsigned (x : Chip) : Calibration := ⟨x.w1.setWidth 32, x.w2.setWidth 32, x.w3.setWidth 32⟩

/-- The temperature that the calibration words stand for. -/
def Chip.reference (x : Chip) : S32 := x.signed.temp x.rawTemp

/-! ## What the two drivers compute -/

theorem word_bytes (w : U16) :
    ((w >>> 8).setWidth 8).setWidth 32 <<< 8 ||| ((w.setWidth 8).setWidth 32 : S32) = w.setWidth 32 := by
  ext i hi
  simp
  grind

theorem Chip.bmp280Init_eq (x : Chip) (old : Calibration) :
    bmp280Init x.bus old = ((0 : S32), x.unsigned) := by
  have connected : bmp280IsConnected x.bus = (1 : S32) := rfl
  have word1 : readWord x.bus regDigT1Msb regDigT1Lsb = (x.w1.setWidth 32 : S32) := word_bytes x.w1
  have word2 : readWord x.bus regDigT2Msb regDigT2Lsb = (x.w2.setWidth 32 : S32) := word_bytes x.w2
  have word3 : readWord x.bus regDigT3Msb regDigT3Lsb = (x.w3.setWidth 32 : S32) := word_bytes x.w3
  unfold bmp280Init
  rw [word1, word2, word3, connected]
  rfl

theorem Chip.readRawTemp_eq (x : Chip) : readRawTemp x.bus = some x.rawTemp := by
  unfold readRawTemp
  show (if x.b1.setWidth 32 = (-1 : S32) then _ else _) = _
  rw [if_neg (byte_ne_error _)]
  show (if x.b2.setWidth 32 = (-1 : S32) then _ else _) = _
  rw [if_neg (byte_ne_error _)]
  show (if x.b3.setWidth 32 = (-1 : S32) then _ else _) = _
  rw [if_neg (byte_ne_error _)]
  rfl

theorem Chip.bmp280_eq (x : Chip) (old : Calibration) : x.bmp280 old = x.unsigned.temp x.rawTemp := by
  unfold Chip.bmp280 bmp280ReadTemperature
  rw [x.bmp280Init_eq, x.readRawTemp_eq]
  rfl

theorem toSigned_word (w : U16) : DtI2c.toSigned (w.setWidth 32) = w.signExtend 32 := by
  have lt := w.isLt
  have word : (65536 : S32).toInt = 65536 := by decide
  have signed := BitVec.toInt_eq_toNat_cond w
  apply BitVec.eq_of_toInt_eq
  rw [toInt_signExtend, signed]
  unfold DtI2c.toSigned
  rw [toInt_zeroExtend]
  split
  · next high =>
    have fits : ((w.setWidth 32 : S32) - 65536).toInt = w.toNat - 65536 := by
      rw [toInt_sub_of_fits, toInt_zeroExtend, word] <;> rw [toInt_zeroExtend, word] <;> omega
    rw [fits]
    split <;> omega
  · next low =>
    rw [toInt_zeroExtend]
    split <;> omega

theorem Chip.dtI2c_eq (x : Chip) : x.dtI2c = x.reference := by
  have word1 : x.smbus.readWordData 0x88 = (x.w1.setWidth 32 : S32) :=
    (BitVec.or_comm _ _).trans (word_bytes x.w1)
  have word2 : x.smbus.readWordData 0x8A = (x.w2.setWidth 32 : S32) :=
    (BitVec.or_comm _ _).trans (word_bytes x.w2)
  have word3 : x.smbus.readWordData 0x8C = (x.w3.setWidth 32 : S32) :=
    (BitVec.or_comm _ _).trans (word_bytes x.w3)
  have words : DtI2c.i2cProbe x.smbus = x.signed := by
    show (⟨_, DtI2c.toSigned _, DtI2c.toSigned _⟩ : Calibration) = _
    rw [word1, word2, word3, toSigned_word, toSigned_word]
    rfl
  unfold Chip.dtI2c
  rw [words]
  rfl

/-! ## Where an unsigned word shows -/

/-- The products in `var1` and `var2` before their last shift. -/
def Calibration.product1 (c : Calibration) (rawTemp : S32) : S32 :=
  (rawTemp.sshiftRight 3 - c.digT1 <<< 1) * c.digT2

def Calibration.product2 (c : Calibration) (rawTemp : S32) : S32 :=
  ((rawTemp.sshiftRight 4 - c.digT1) * (rawTemp.sshiftRight 4 - c.digT1)).sshiftRight 12 * c.digT3

/-- After the two products nothing wraps any more. -/
theorem Calibration.temp_toInt (c : Calibration) (raw : S32) : (c.temp raw).toInt =
    (((c.product1 raw).toInt / 2 ^ 11 + (c.product2 raw).toInt / 2 ^ 14) * 5 + 128) / 2 ^ 8 := by
  show ((((c.product1 raw).sshiftRight 11 + (c.product2 raw).sshiftRight 14) * 5 + 128).sshiftRight 8).toInt = _
  have bound1 := toInt_bounds (c.product1 raw)
  have bound2 := toInt_bounds (c.product2 raw)
  have five : (5 : S32).toInt = 5 := by decide
  have half : (128 : S32).toInt = 128 := by decide
  have sum : ((c.product1 raw).sshiftRight 11 + (c.product2 raw).sshiftRight 14).toInt =
      (c.product1 raw).toInt / 2 ^ 11 + (c.product2 raw).toInt / 2 ^ 14 := by
    rw [toInt_add_of_fits] <;> rw [toInt_sshiftRight, toInt_sshiftRight] <;> omega
  have scaled : (((c.product1 raw).sshiftRight 11 + (c.product2 raw).sshiftRight 14) * 5).toInt =
      ((c.product1 raw).toInt / 2 ^ 11 + (c.product2 raw).toInt / 2 ^ 14) * 5 := by
    rw [toInt_mul_of_fits] <;> rw [sum, five] <;> omega
  have rounded : (((c.product1 raw).sshiftRight 11 + (c.product2 raw).sshiftRight 14) * 5 + 128).toInt =
      ((c.product1 raw).toInt / 2 ^ 11 + (c.product2 raw).toInt / 2 ^ 14) * 5 + 128 := by
    rw [toInt_add_of_fits] <;> rw [scaled, half] <;> omega
  rw [toInt_sshiftRight, rounded]

/-- An unsigned word with the top bit set is 2^16 too large. -/
theorem unsigned_word {w : U16} (h : w.msb = true) : (w.setWidth 32 : S32) = w.signExtend 32 + 65536 := by
  have lt := w.isLt
  have word : (65536 : S32).toInt = 65536 := by decide
  have signed : w.toInt = w.toNat - 2 ^ 16 := by rw [BitVec.toInt_eq_msb_cond, if_pos h]; norm_cast
  apply BitVec.eq_of_toInt_eq
  rw [toInt_zeroExtend, toInt_add_of_fits] <;> rw [toInt_signExtend, signed, word] <;> omega

theorem signed_word {w : U16} (h : w.msb = false) : (w.setWidth 32 : S32) = w.signExtend 32 := by
  apply BitVec.eq_of_toInt_eq
  rw [toInt_zeroExtend, toInt_signExtend, BitVec.toInt_eq_msb_cond, if_neg (by simp [h])]

/-- Two calibrations with the same second product, whose first products differ by
half the range. -/
theorem temp_ne_of_product1 {c c' : Calibration} {raw : S32}
    (product1 : c'.product1 raw = c.product1 raw + 0x80000000) (product2 : c'.product2 raw = c.product2 raw) :
    c'.temp raw ≠ c.temp raw := by
  intro same
  have temps := congrArg BitVec.toInt same
  rw [c'.temp_toInt, c.temp_toInt, product1, product2] at temps
  have half : (0x80000000 : S32).toInt = -2 ^ 31 := by decide
  have wraps := toInt_add_wraps (c.product1 raw) 0x80000000
  have bound := toInt_bounds (c.product1 raw + 0x80000000)
  omega

/-- Two calibrations with the same first product, whose second products differ by
a quarter of the range. -/
theorem temp_ne_of_product2 {c c' : Calibration} {raw : S32}
    (product1 : c'.product1 raw = c.product1 raw) (product2 : c'.product2 raw = c.product2 raw + 0x40000000) :
    c'.temp raw ≠ c.temp raw := by
  intro same
  have temps := congrArg BitVec.toInt same
  rw [c'.temp_toInt, c.temp_toInt, product1, product2] at temps
  have quarter : (0x40000000 : S32).toInt = 2 ^ 30 := by decide
  have wraps := toInt_add_wraps (c.product2 raw) 0x40000000
  have bound := toInt_bounds (c.product2 raw + 0x40000000)
  omega

/-- The sample with these upper 16 bits. -/
def sampleAt (b : U16) : TempSample := b ++ 0#4

theorem sampleAt_shift4 (b : U16) : ((sampleAt b).setWidth 32 : S32).sshiftRight 4 = b.setWidth 32 := by
  ext i hi
  simp [sampleAt]
  grind

theorem sampleAt_shift3 (b : U16) : ((sampleAt b).setWidth 32 : S32).sshiftRight 3 = b.setWidth 32 <<< 1 := by
  ext i hi
  simp [sampleAt]
  grind

/-- There is a sample at the distance `d` on one side of `dig_T1`. -/
theorem exists_sampleAt (w d : U16) (small : d.toNat < 0x8000) :
    ∃ (b : U16) (e : S32), (b.setWidth 32 : S32) - w.setWidth 32 = e ∧
      (e = d.setWidth 32 ∨ e = -d.setWidth 32) := by
  have lt := w.isLt
  by_cases low : w.toNat < 0x8000
  · refine ⟨w + d, d.setWidth 32, ?_, .inl rfl⟩
    bv_omega
  · refine ⟨w - d, -d.setWidth 32, ?_, .inr rfl⟩
    bv_omega

section Distance

variable {c : Calibration} {b : U16} {d : S32}

theorem product1_at (h : b.setWidth 32 - c.digT1 = d) :
    c.product1 ((sampleAt b).setWidth 32) = (d <<< 1) * c.digT2 := by
  unfold Calibration.product1
  rw [sampleAt_shift3, ← h]
  congr 1
  bv_omega

theorem product2_at (h : b.setWidth 32 - c.digT1 = d) :
    c.product2 ((sampleAt b).setWidth 32) = (d * d).sshiftRight 12 * c.digT3 := by
  unfold Calibration.product2
  rw [sampleAt_shift4, h]

end Distance

/-- At the distance 2^14 the error of `dig_T2` is half the range, and one of `dig_T3`
is shifted out. -/
theorem digT2_shows (x : Chip) (h : x.w2.msb = true) :
    ∃ s : TempSample, x.unsigned.temp (s.setWidth 32) ≠ x.signed.temp (s.setWidth 32) := by
  obtain ⟨b, e, distance, side⟩ := exists_sampleAt x.w1 0x4000 (by decide)
  have error2 : (e <<< 1) * 65536 = 0x80000000 := by rcases side with rfl | rfl <;> decide
  have error3 : (e * e).sshiftRight 12 * 65536 = 0#32 := by rcases side with rfl | rfl <;> decide
  refine ⟨sampleAt b, temp_ne_of_product1 ?_ ?_⟩
  · rw [product1_at (c := x.unsigned) distance, product1_at (c := x.signed) distance]
    show (e <<< 1) * x.w2.setWidth 32 = (e <<< 1) * x.w2.signExtend 32 + 0x80000000
    rw [unsigned_word h, BitVec.mul_add, error2]
  · rw [product2_at (c := x.unsigned) distance, product2_at (c := x.signed) distance]
    show (e * e).sshiftRight 12 * x.w3.setWidth 32 = (e * e).sshiftRight 12 * x.w3.signExtend 32
    cases top : x.w3.msb with
    | false => rw [signed_word top]
    | true => rw [unsigned_word top, BitVec.mul_add, error3, BitVec.add_zero]

/-- At the distance 2^13 the error of `dig_T3` is a quarter of the range. -/
theorem digT3_shows (x : Chip) (h2 : x.w2.msb = false) (h3 : x.w3.msb = true) :
    ∃ s : TempSample, x.unsigned.temp (s.setWidth 32) ≠ x.signed.temp (s.setWidth 32) := by
  obtain ⟨b, e, distance, side⟩ := exists_sampleAt x.w1 0x2000 (by decide)
  have error3 : (e * e).sshiftRight 12 * 65536 = 0x40000000 := by rcases side with rfl | rfl <;> decide
  refine ⟨sampleAt b, temp_ne_of_product2 ?_ ?_⟩
  · rw [product1_at (c := x.unsigned) distance, product1_at (c := x.signed) distance]
    show (e <<< 1) * x.w2.setWidth 32 = (e <<< 1) * x.w2.signExtend 32
    rw [signed_word h2]
  · rw [product2_at (c := x.unsigned) distance, product2_at (c := x.signed) distance]
    show (e * e).sshiftRight 12 * x.w3.setWidth 32 = (e * e).sshiftRight 12 * x.w3.signExtend 32 + 0x40000000
    rw [unsigned_word h3, BitVec.mul_add, error3]

/-- The sensor with the same words and another sample. -/
def Chip.holding (x : Chip) (s : TempSample) : Chip :=
  { x with b1 := s.msb8, b2 := s.lsb8, b3 := s.xlsb4 ++ 0#4 }

theorem Chip.rawTemp_holding (x : Chip) (s : TempSample) : (x.holding s).rawTemp = s.setWidth 32 := by
  show Bmp280.rawTemp (s.msb8.setWidth 32) (s.lsb8.setWidth 32) ((s.xlsb4 ++ 0#4 : U8).setWidth 32) = _
  rw [rawTemp_bytes, s.parts]

/-- **Agreement of the two drivers**: for the calibration words `w1`, `w2`, `w3` and
all temperature registers, exactly if `w2` and `w3` are non-negative. -/
theorem compensation_agrees_iff (old : Calibration) (w1 w2 w3 : U16) :
    (∀ b1 b2 b3 : U8, Chip.bmp280 ⟨w1, w2, w3, b1, b2, b3⟩ old = Chip.dtI2c ⟨w1, w2, w3, b1, b2, b3⟩ ∧
      Chip.dtI2c ⟨w1, w2, w3, b1, b2, b3⟩ = Chip.reference ⟨w1, w2, w3, b1, b2, b3⟩) ↔
    w2.msb = false ∧ w3.msb = false := by
  constructor
  · intro agree
    -- a sample at which the calibrations differ is a reading at which the drivers do
    have same : ∀ s : TempSample, ∀ x : Chip, x = ⟨w1, w2, w3, 0, 0, 0⟩ →
        x.unsigned.temp (s.setWidth 32) = x.signed.temp (s.setWidth 32) := by
      rintro s x rfl
      have reading := (agree s.msb8 s.lsb8 (s.xlsb4 ++ 0#4)).1
      rw [Chip.bmp280_eq, Chip.dtI2c_eq] at reading
      have raw := Chip.rawTemp_holding ⟨w1, w2, w3, 0, 0, 0⟩ s
      rw [← raw]
      exact reading
    have low2 : w2.msb = false := by
      by_contra high
      obtain ⟨s, differ⟩ := digT2_shows ⟨w1, w2, w3, 0, 0, 0⟩ (by simpa using high)
      exact differ (same s _ rfl)
    refine ⟨low2, ?_⟩
    by_contra high
    obtain ⟨s, differ⟩ := digT3_shows ⟨w1, w2, w3, 0, 0, 0⟩ low2 (by simpa using high)
    exact differ (same s _ rfl)
  · rintro ⟨low2, low3⟩ b1 b2 b3
    rw [Chip.bmp280_eq, Chip.dtI2c_eq]
    refine ⟨?_, rfl⟩
    unfold Chip.reference Chip.unsigned Chip.signed
    rw [signed_word low2, signed_word low3]

/-- A sensor whose `dig_T3` is -1000. -/
def exampleChip : Chip where
  w1 := 27504
  w2 := 26435
  w3 := 64536
  b1 := 0x7E
  b2 := 0xED
  b3 := 0x00

/-- `bmp280_read_temperature` returns 2983 and `read_temperature` 2508. -/
theorem exampleChip_disagrees : ¬ ∀ (x : Chip) (old : Calibration),
    x.bmp280 old = x.dtI2c ∧ x.dtI2c = x.reference := by
  intro agree
  have first : exampleChip.bmp280 ⟨0, 0, 0⟩ = 2983 := by decide +kernel
  have second : exampleChip.dtI2c = 2508 := by decide +kernel
  have same := (agree exampleChip ⟨0, 0, 0⟩).1
  rw [first, second] at same
  cases same

end Beaglebone.Bmp280
