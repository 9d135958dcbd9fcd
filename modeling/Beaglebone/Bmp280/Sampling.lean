import Beaglebone.Bmp280.Calls

/-!
# A temperature read in three transactions

The sensor replaces its 20-bit sample at any moment, also between two of the
three transactions of `bmp280_read_temperature`. The driver has no means to hold
it back or to notice: `raw_temp` takes its upper byte from the sample of the first
transaction, the middle one from that of the second and the low four bits from
that of the third (`readTemperature_parts`), which need not be a sample at all.
-/

namespace Beaglebone.Bmp280

open Machine

abbrev TempSample := BitVec 20

def TempSample.msb8 (s : TempSample) : U8 := s.extractLsb' 12 8
def TempSample.lsb8 (s : TempSample) : U8 := s.extractLsb' 4 8
def TempSample.xlsb4 (s : TempSample) : BitVec 4 := s.extractLsb' 0 4

/-- The registers 0xFA, 0xFB and 0xFC, which holds four bits in its upper half. -/
def TempSample.register (s : TempSample) (a : U8) : U8 :=
  if a = regTempMsb then s.msb8
  else if a = regTempLsb then s.lsb8
  else s.xlsb4 ++ 0#4

/-- The sensor in NORMAL mode: its sample, and those that will replace it before
each of the next transactions. -/
structure Sensor where
  sample : TempSample
  updates : List (List TempSample)

/-- A transaction that succeeds. -/
def Sensor.read (a : U8) : StateM Sensor S32 := fun s =>
  let sample := (s.updates.headD []).getLastD s.sample
  ((sample.register a).setWidth 32, ⟨sample, s.updates.tail⟩)

def Sensor.bus : Bus (StateM Sensor) where
  cottiI2cRead := Sensor.read
  cottiI2cWrite _ _ := pure 0

/-- One call: the sample at its begin, and the samples that replace it before the
first transaction, before the second, before the third, and after it. -/
structure Timeline where
  first : TempSample
  before1 : List TempSample
  before2 : List TempSample
  before3 : List TempSample
  after : List TempSample

namespace Timeline

variable (t : Timeline)

/-- Every sample held during the call. -/
def held : List TempSample := t.first :: (t.before1 ++ t.before2 ++ t.before3 ++ t.after)

/-- The samples at the three transactions. -/
def at1 : TempSample := t.before1.getLastD t.first
def at2 : TempSample := t.before2.getLastD t.at1
def at3 : TempSample := t.before3.getLastD t.at2

def sensor : Sensor := ⟨t.first, [t.before1, t.before2, t.before3]⟩

/-- What the three transactions see, put together. -/
def mixed : TempSample := t.at1.msb8 ++ t.at2.lsb8 ++ t.at3.xlsb4

end Timeline

/-- A byte that has been read is not the error value. -/
theorem byte_ne_error (b : U8) : b.setWidth 32 ≠ (-1 : S32) := by
  intro h
  have same := congrArg BitVec.toNat h
  have lt := b.isLt
  simp at same
  omega

/-- The bits of a number in three parts. -/
theorem getLsbD_parts (b1 b2 : U8) (b3 : BitVec 4) (i : Nat) : (b1 ++ b2 ++ b3).getLsbD i =
    if i < 4 then b3.getLsbD i else if i < 12 then b2.getLsbD (i - 4) else b1.getLsbD (i - 12) := by
  rw [BitVec.getLsbD_append, BitVec.getLsbD_append]
  by_cases low : i < 4
  · simp [low]
  · have mid : i - 4 < 8 ↔ i < 12 := by omega
    have high : i - 4 - 8 = i - 12 := by omega
    simp [low, mid, high]

/-- The three bytes as a 20-bit number. -/
theorem rawTemp_bytes (b1 b2 : U8) (b3 : BitVec 4) :
    rawTemp (b1.setWidth 32) (b2.setWidth 32) ((b3 ++ 0#4 : U8).setWidth 32) =
      (b1 ++ b2 ++ b3 : TempSample).setWidth 32 := by
  unfold rawTemp
  apply BitVec.eq_of_getLsbD_eq
  intro i hi
  rw [BitVec.getLsbD_setWidth, getLsbD_parts, BitVec.getLsbD_sshiftRight]
  have above : ∀ (b : U8) (j : Nat), 8 ≤ j → b.getLsbD j = false := fun b j => BitVec.getLsbD_of_ge b j
  have above4 : ∀ j : Nat, 4 ≤ j → b3.getLsbD j = false := BitVec.getLsbD_of_ge b3
  have low : (b3 ++ 0#4).getLsbD (4 + i) = b3.getLsbD i := by
    rw [BitVec.getLsbD_append, if_neg (by omega), Nat.add_sub_cancel_left]
  by_cases inside : 4 + i < 32
  · simp only [inside, if_true, BitVec.getLsbD_or, BitVec.getLsbD_shiftLeft, BitVec.getLsbD_setWidth, low]
    split
    · next h => simp [hi, show 4 + i < 8 by omega, show 4 + i < 16 by omega]
    split
    · next h3 h =>
      rw [above4 i (by omega)]
      simp [hi, show ¬ 4 + i < 8 by omega, show 4 + i < 16 by omega, show 4 + i - 8 = i - 4 by omega,
        show i - 4 < 32 by omega]
    · next h3 h2 =>
      rw [above4 i (by omega), above b2 (4 + i - 8) (by omega)]
      simp [hi, show ¬ 4 + i < 16 by omega, show 4 + i - 16 = i - 12 by omega, show i - 12 < 32 by omega]
  · have top : ∀ b : U8, b.getLsbD (i - 12) = false := fun b => above b _ (by omega)
    simp [inside, BitVec.msb_eq_getLsbD_last, show ¬ i < 4 by omega, show ¬ i < 12 by omega, top]

/-- One transaction: the updates before it, then the read, which does not fail. -/
theorem read_run {fail : StateM Sensor (Option S32)} {k : S32 → StateM Sensor (Option S32)} (a : U8)
    (s : TempSample) (u : List TempSample) (us : List (List TempSample)) :
    StateT.run (do let d ← Sensor.bus.cottiI2cRead a; if d = -1 then fail else k d) ⟨s, u :: us⟩ =
      (k (((u.getLastD s).register a).setWidth 32)).run ⟨u.getLastD s, us⟩ := by
  show StateT.run (if ((u.getLastD s).register a).setWidth 32 = (-1 : S32) then fail else k _) _ = _
  rw [if_neg (byte_ne_error _)]
  rfl

theorem readRawTemp_run (t : Timeline) :
    ((readRawTemp Sensor.bus).run t.sensor).1 = some (t.mixed.setWidth 32) := by
  unfold readRawTemp Timeline.sensor
  rw [read_run, read_run, read_run]
  exact congrArg some (rawTemp_bytes t.at1.msb8 t.at2.lsb8 t.at3.xlsb4)

theorem readTemperature_run (t : Timeline) (c : Calibration) (unit : TempUnit) :
    ((bmp280ReadTemperature Sensor.bus c unit).run t.sensor).1 =
      unit.convert (c.temp (t.mixed.setWidth 32)) := by
  have raw := readRawTemp_run t
  cases run : (readRawTemp Sensor.bus).run t.sensor with
  | mk result s =>
    rw [run] at raw
    subst raw
    unfold bmp280ReadTemperature
    rw [StateT.run_bind, run]
    rfl

/-- A sample is its three parts. -/
theorem TempSample.parts (s : TempSample) : s.msb8 ++ s.lsb8 ++ s.xlsb4 = s := by
  apply BitVec.eq_of_getLsbD_eq
  intro i hi
  rw [getLsbD_parts]
  simp only [msb8, lsb8, xlsb4, BitVec.getLsbD_extractLsb']
  have range : i < 20 := hi
  split
  · next low => simp [low]
  split
  · next low mid =>
    rw [show 4 + (i - 4) = i by omega]
    simp
    omega
  · next low mid =>
    rw [show 12 + (i - 12) = i by omega]
    simp
    omega

theorem TempSample.parts_append (b1 b2 : U8) (b3 : BitVec 4) :
    msb8 (b1 ++ b2 ++ b3) = b1 ∧ lsb8 (b1 ++ b2 ++ b3) = b2 ∧ xlsb4 (b1 ++ b2 ++ b3) = b3 := by
  unfold msb8 lsb8 xlsb4
  refine ⟨?_, ?_, ?_⟩ <;> apply BitVec.eq_of_getLsbD_eq <;> intro i hi <;>
    rw [BitVec.getLsbD_extractLsb', getLsbD_parts]
  · rw [if_neg (by omega), if_neg (by omega), Nat.add_sub_cancel_left]
    simp [hi]
  · rw [if_neg (by omega), if_pos (by omega), Nat.add_sub_cancel_left]
    simp [hi]
  · rw [Nat.zero_add, if_pos hi]
    simp [hi]

namespace Timeline

variable (t : Timeline)

theorem latest_mem {s : TempSample} {u held : List TempSample} (first : s ∈ held) (sub : u ⊆ held) :
    u.getLastD s ∈ held := by
  have mem : u.getLastD s ∈ s :: u := List.getLastD_mem_cons
  rcases List.mem_cons.1 mem with same | new
  · rw [same]; exact first
  · exact sub new

theorem at1_mem : t.at1 ∈ t.held := latest_mem (by simp [held]) fun x hx => by simp [held, hx]

theorem at2_mem : t.at2 ∈ t.held := latest_mem t.at1_mem fun x hx => by simp [held, hx]

theorem at3_mem : t.at3 ∈ t.held := latest_mem t.at2_mem fun x hx => by simp [held, hx]

theorem eq_mixed_iff (s : TempSample) :
    s = t.mixed ↔ s.msb8 = t.at1.msb8 ∧ s.lsb8 = t.at2.lsb8 ∧ s.xlsb4 = t.at3.xlsb4 := by
  constructor
  · rintro rfl
    exact TempSample.parts_append _ _ _
  · rintro ⟨msb, lsb, xlsb⟩
    rw [← s.parts, msb, lsb, xlsb]
    rfl

end Timeline

/-- **What one call reads.** `raw_temp` consists of a part of the sample at each of
the three transactions. It is a sample held during the call exactly if one of
these has all three parts, which is so when none arrives between the first and
the third transaction. -/
theorem readTemperature_parts (t : Timeline) (c : Calibration) (unit : TempUnit) :
    ∃ raw : TempSample,
      ((readRawTemp Sensor.bus).run t.sensor).1 = some (raw.setWidth 32) ∧
      ((bmp280ReadTemperature Sensor.bus c unit).run t.sensor).1 = unit.convert (c.temp (raw.setWidth 32)) ∧
      (t.at1 ∈ t.held ∧ t.at2 ∈ t.held ∧ t.at3 ∈ t.held) ∧
      (raw.msb8 = t.at1.msb8 ∧ raw.lsb8 = t.at2.lsb8 ∧ raw.xlsb4 = t.at3.xlsb4) ∧
      (raw ∈ t.held ↔
        ∃ s ∈ t.held, s.msb8 = t.at1.msb8 ∧ s.lsb8 = t.at2.lsb8 ∧ s.xlsb4 = t.at3.xlsb4) ∧
      (t.before2 = [] → t.before3 = [] → raw ∈ t.held) := by
  have whole : t.mixed ∈ t.held ↔
      ∃ s ∈ t.held, s.msb8 = t.at1.msb8 ∧ s.lsb8 = t.at2.lsb8 ∧ s.xlsb4 = t.at3.xlsb4 := by
    simp only [← t.eq_mixed_iff]
    simp
  refine ⟨t.mixed, readRawTemp_run t, readTemperature_run t c unit, ⟨t.at1_mem, t.at2_mem, t.at3_mem⟩,
    (t.eq_mixed_iff _).1 rfl, whole, fun none2 none3 => ?_⟩
  have same2 : t.at2 = t.at1 := by simp [Timeline.at2, none2]
  have same3 : t.at3 = t.at1 := by simp [Timeline.at3, none3, same2]
  exact whole.2 ⟨t.at1, t.at1_mem, rfl, by rw [same2], by rw [same3]⟩

/-- The sample goes from 0x0FFFF to 0x10000 after the first transaction. -/
def carry : Timeline where
  first := 0x0FFFF
  before1 := []
  before2 := [0x10000]
  before3 := []
  after := []

/-- `raw_temp` is 0x0F000 then. -/
theorem carry_torn : ¬ ∀ t : Timeline, ∃ s ∈ t.held,
    ((readRawTemp Sensor.bus).run t.sensor).1 = some (s.setWidth 32) := by
  intro whole
  obtain ⟨s, mem, same⟩ := whole carry
  have held : s = 0x0FFFF ∨ s = 0x10000 := by simpa [Timeline.held, carry] using mem
  rw [readRawTemp_run] at same
  have value : carry.mixed.setWidth 32 = s.setWidth 32 := Option.some.inj same
  rcases held with rfl | rfl
  · exact absurd value (by decide)
  · exact absurd value (by decide)

end Beaglebone.Bmp280
