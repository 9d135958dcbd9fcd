import Beaglebone.Driver.Init

/-!
# Clock programming

The timing registers of the controller are computed in u32 from the rate of the
functional clock and two rates of the device tree, none of which is checked, and
narrowed to eight bits. `cottiI2cInitAt` is `cottiI2cInit` with these computations
and the bytes written; without them it is `cottiI2cInit` again (`initAt_erase`).
Behind the reset every computation is exact and PSC, SCLL and SCLH are written with
the quotients of the rates, if and only if the two quotients are in range; without a
mapping or a reset that ends, nothing is computed and nothing written
(`clock_programmed_iff`).
-/

namespace Beaglebone.Driver

open Machine I2c Script

/-- The rates that the timing registers are computed from. -/
structure Rates where
  fclkRate : U32
  intClkRate : U32
  bitRate : U32
  deriving DecidableEq, Repr

/-- One arithmetic operation, with its operands. -/
inductive Calc where
  | div (a b : U32)
  | mul (a b : U32)
  | sub (a b : U32)
  /-- the cast to u8 -/
  | narrow (a : U32)
  deriving DecidableEq, Repr

/-- It computes what it says, over the natural numbers. -/
def Calc.Exact : Calc → Prop
  | .div _ b => b ≠ 0
  | .mul a b => a.toNat * b.toNat < 4294967296
  | .sub a b => b.toNat ≤ a.toNat
  | .narrow a => a.toNat < 256

inductive TimingReg where
  | psc
  | scll
  | sclh
  deriving DecidableEq, Repr

/-- An operation of `cotti_i2c_init`: an external one, an arithmetic one, or the
write of a timing register. -/
inductive ClockOp where
  | drv (op : Op)
  | calc (c : Calc)
  | write (reg : TimingReg) (value : U8)
  deriving DecidableEq, Repr

/-- The external operation behind it. -/
def ClockOp.erase : ClockOp → List Op
  | .drv op => [op]
  | .calc _ => []
  | .write _ _ => [.access .i2c]

abbrev ClockCode := Script ClockOp

def drv {α : Type} (m : Code α) : ClockCode α := m.lift .drv

def div (a b : U32) : ClockCode U32 := do
  emit (.calc (.div a b))
  pure (a / b)

def mul (a b : U32) : ClockCode U32 := do
  emit (.calc (.mul a b))
  pure (a * b)

def sub (a b : U32) : ClockCode U32 := do
  emit (.calc (.sub a b))
  pure (a - b)

/-- `iowrite8((u8) a, …)` -/
def write8 (reg : TimingReg) (a : U32) : ClockCode Unit := do
  emit (.calc (.narrow a))
  emit (.write reg (a.setWidth 8))

/-- "Configure internal I2C clock and SCL." -/
def configureClock (r : Rates) : ClockCode Unit := do
  let psc ← sub (← div r.fclkRate r.intClkRate) 1
  let scll ← sub (← div r.intClkRate (← mul r.bitRate 2)) 7
  let sclh ← sub (← div r.intClkRate (← mul r.bitRate 2)) 5
  write8 .psc psc
  write8 .scll scll
  write8 .sclh sclh

/-- `cottiI2cConfigure` with the clock. -/
def cottiI2cConfigureAt (r : Rates) (x : I2cInit) (retval : Int) : ClockCode Int := do
  drv (access .controlModule 2)
  drv prvWakeup
  let reset ← drv (prvReset x.syss)
  if reset ≠ 0 then drv (i2cPtrError retval) else do
  -- SYSC
  drv (access .i2c 1)
  configureClock r
  -- CON and IRQENABLE_SET
  drv (access .i2c 2)
  drv (emit (.setIrq x.platformIrq))
  if x.platformIrq < 0 then drv (i2cPtrError x.platformIrq) else do
  if x.requestIrq < 0 then drv (i2cPtrError x.requestIrq) else do
  drv (emit .requestIrq)
  drv (emit (.release .pinmuxNode))
  drv (emit (.release .clkNode))
  pure 0

/-- `cottiI2cInit` with the clock, which is programmed only behind the mapping. -/
def cottiI2cInitAt (r : Rates) (x : I2cInit) : ClockCode Int :=
  if x.Maps then do
    drv (emits (mapOps .ok))
    cottiI2cConfigureAt r x 0
  else drv (cottiI2cInit x)

/-- The dividers that the three rates ask for fit into the registers. -/
def Rates.InRange (r : Rates) : Prop :=
  (1 ≤ r.fclkRate.toNat / r.intClkRate.toNat ∧ r.fclkRate.toNat / r.intClkRate.toNat ≤ 256) ∧
  (7 ≤ r.intClkRate.toNat / (2 * r.bitRate.toNat) ∧ r.intClkRate.toNat / (2 * r.bitRate.toNat) ≤ 260)

/-- The byte that a timing register should hold. -/
def Rates.Programs (r : Rates) : TimingReg → U8 → Prop
  | .psc, v => v.toNat + 1 = r.fclkRate.toNat / r.intClkRate.toNat
  | .scll, v => v.toNat + 7 = r.intClkRate.toNat / (2 * r.bitRate.toNat)
  | .sclh, v => v.toNat + 5 = r.intClkRate.toNat / (2 * r.bitRate.toNat)

/-- The write of a timing register. -/
def ClockOp.written : ClockOp → Option (TimingReg × U8)
  | .write reg v => some (reg, v)
  | _ => none

/-- `m` computes nothing wrong, and writes each of the three timing registers once, with
the right byte. -/
structure ClockProgrammed (r : Rates) (m : ClockCode Int) : Prop where
  exact : ∀ c, .calc c ∈ m.ops → c.Exact
  written : ∃ psc scll sclh, m.ops.filterMap ClockOp.written = [(.psc, psc), (.scll, scll), (.sclh, sclh)] ∧
    r.Programs .psc psc ∧ r.Programs .scll scll ∧ r.Programs .sclh sclh

/-- `m` returns an error before it writes a timing register. -/
def RefusesClock (m : ClockCode Int) : Prop := m.val ≠ 0 ∧ m.ops.filterMap ClockOp.written = []

/-- The operation belongs to the clock. -/
def ClockOp.timing : ClockOp → Bool
  | .drv _ => false
  | _ => true

/-! Without the clock -/

section Erase

variable {r : Rates} {x : I2cInit} {α β : Type}

/-- `m'` is `m` with the clock. -/
def Erases (m' : ClockCode α) (m : Code α) : Prop := m'.ops.flatMap ClockOp.erase = m.ops ∧ m'.val = m.val

theorem Erases.drv (m : Code α) : Erases (drv m) m :=
  ⟨by simp [Driver.drv, List.flatMap_map, ClockOp.erase], rfl⟩

theorem Erases.bind {m' : ClockCode α} {m : Code α} {f' : α → ClockCode β} {f : α → Code β} (h : Erases m' m)
    (k : Erases (f' m.val) (f m.val)) : Erases (m' >>= f') (m >>= f) := by
  obtain ⟨ops, val⟩ := h
  constructor
  · rw [bind_ops, bind_ops, List.flatMap_append, ops, val, k.1]
  · rw [bind_val, bind_val, val, k.2]

theorem configureClock_erase (r : Rates) : Erases (configureClock r) (access .i2c 3) := ⟨rfl, rfl⟩

theorem configureAt_erase (r : Rates) (x : I2cInit) (v : Int) :
    Erases (cottiI2cConfigureAt r x v) (cottiI2cConfigure x v) := by
  have six : ∀ f : Unit → Code Int, (access .i2c 6 >>= f) =
      access .i2c 1 >>= fun _ => access .i2c 3 >>= fun _ => access .i2c 2 >>= f := fun _ => rfl
  unfold cottiI2cConfigureAt cottiI2cConfigure
  refine (Erases.drv _).bind ((Erases.drv _).bind ((Erases.drv _).bind ?_))
  split
  · exact Erases.drv _
  rw [six]
  refine (Erases.drv _).bind ((configureClock_erase r).bind ((Erases.drv _).bind ((Erases.drv _).bind ?_)))
  split
  · exact Erases.drv _
  split
  · exact Erases.drv _
  exact (Erases.drv _).bind ((Erases.drv _).bind ((Erases.drv _).bind ⟨rfl, rfl⟩))

/-- Without the clock it is `cottiI2cInit`. -/
theorem initAt_erase (r : Rates) (x : I2cInit) : Erases (cottiI2cInitAt r x) (cottiI2cInit x) := by
  unfold cottiI2cInitAt
  split
  · next maps =>
    obtain ⟨ops, val⟩ := init_reaches maps.1 (by rw [maps.2]; decide)
    rw [maps.2] at ops
    have behind : Erases (drv (emits (mapOps .ok)) >>= fun _ => cottiI2cConfigureAt r x 0)
        (emits (mapOps .ok) >>= fun _ => cottiI2cConfigure x 0) :=
      (Erases.drv _).bind (configureAt_erase r x 0)
    exact ⟨behind.1.trans ops.symm, behind.2.trans val.symm⟩
  · exact Erases.drv _

end Erase

/-! The computation -/

section Clock

variable {r : Rates} {x : I2cInit} {a b : U32}

theorem narrow_toNat (h : a.toNat < 256) : (a.setWidth 8 : U8).toNat = a.toNat := by
  rw [BitVec.toNat_setWidth]
  exact Nat.mod_eq_of_lt h

theorem sub_toNat (h : b.toNat ≤ a.toNat) : (a - b).toNat = a.toNat - b.toNat :=
  BitVec.toNat_sub_of_le h

theorem mul_toNat (h : a.toNat * b.toNat < 4294967296) : (a * b).toNat = a.toNat * b.toNat := by
  rw [BitVec.toNat_mul]
  exact Nat.mod_eq_of_lt h

/-- The dividers, in u32. -/
def Rates.prescaler (r : Rates) : U32 := r.fclkRate / r.intClkRate

def Rates.halfPeriod (r : Rates) : U32 := r.intClkRate / (r.bitRate * 2)

theorem configureClock_ops (r : Rates) : (configureClock r).ops =
    [.calc (.div r.fclkRate r.intClkRate), .calc (.sub r.prescaler 1),
     .calc (.mul r.bitRate 2), .calc (.div r.intClkRate (r.bitRate * 2)), .calc (.sub r.halfPeriod 7),
     .calc (.mul r.bitRate 2), .calc (.div r.intClkRate (r.bitRate * 2)), .calc (.sub r.halfPeriod 5),
     .calc (.narrow (r.prescaler - 1)), .write .psc ((r.prescaler - 1).setWidth 8),
     .calc (.narrow (r.halfPeriod - 7)), .write .scll ((r.halfPeriod - 7).setWidth 8),
     .calc (.narrow (r.halfPeriod - 5)), .write .sclh ((r.halfPeriod - 5).setWidth 8)] := rfl

theorem prescaler_toNat (r : Rates) : r.prescaler.toNat = r.fclkRate.toNat / r.intClkRate.toNat :=
  BitVec.toNat_udiv

theorem halfPeriod_toNat (h : r.bitRate.toNat * 2 < 4294967296) :
    r.halfPeriod.toNat = r.intClkRate.toNat / (2 * r.bitRate.toNat) := by
  rw [Rates.halfPeriod, BitVec.toNat_udiv, mul_toNat h, Nat.mul_comm]
  rfl

/-- In range the doubling does not wrap. -/
theorem Rates.InRange.double (h : r.InRange) : r.bitRate.toNat * 2 < 4294967296 := by
  have bound := r.intClkRate.isLt
  have quotient := Nat.div_mul_le_self r.intClkRate.toNat (2 * r.bitRate.toNat)
  have seven := Nat.mul_le_mul_right (2 * r.bitRate.toNat) h.2.1
  omega

/-- In range there is no division by zero. -/
theorem Rates.InRange.divisors (h : r.InRange) : r.intClkRate ≠ 0 ∧ r.bitRate * 2 ≠ 0 := by
  have double := h.double
  obtain ⟨⟨one, -⟩, seven, -⟩ := h
  constructor
  · intro zero
    simp [zero] at one
  · intro zero
    have none : r.bitRate.toNat * 2 = 0 := (mul_toNat double).symm.trans (congrArg BitVec.toNat zero)
    rw [Nat.mul_comm 2, none] at seven
    simp at seven

theorem inRange_of_exact (h : ∀ c, .calc c ∈ (configureClock r).ops → c.Exact) : r.InRange := by
  simp only [configureClock_ops] at h
  have prescaler : (1 : U32).toNat ≤ r.prescaler.toNat := h (.sub r.prescaler 1) (by simp)
  have double : r.bitRate.toNat * 2 < 4294967296 := h (.mul r.bitRate 2) (by simp)
  have halfPeriod : 7 ≤ r.halfPeriod.toNat := h (.sub r.halfPeriod 7) (by simp)
  have psc : (r.prescaler - 1).toNat < 256 := h (.narrow (r.prescaler - 1)) (by simp)
  have sclh : (r.halfPeriod - 5).toNat < 256 := h (.narrow (r.halfPeriod - 5)) (by simp)
  have high : r.prescaler.toNat - 1 < 256 := by rwa [sub_toNat prescaler] at psc
  have high' : r.halfPeriod.toNat - 5 < 256 := by
    have five : (5 : U32).toNat ≤ r.halfPeriod.toNat := Nat.le_trans (by decide) halfPeriod
    rwa [sub_toNat five] at sclh
  unfold Rates.InRange
  rw [← prescaler_toNat, ← halfPeriod_toNat double]
  have one : (1 : U32).toNat = 1 := rfl
  omega

/-- The bounds on the dividers in u32. -/
theorem Rates.InRange.dividers (h : r.InRange) :
    (1 ≤ r.prescaler.toNat ∧ r.prescaler.toNat ≤ 256) ∧ 7 ≤ r.halfPeriod.toNat ∧ r.halfPeriod.toNat ≤ 260 := by
  rw [prescaler_toNat, halfPeriod_toNat h.double]
  exact h

/-- A divider less a constant fits into eight bits. -/
theorem divider_toNat {q k : U32} {n : Nat} (hk : k.toNat = n) (low : n ≤ q.toNat) (high : q.toNat < n + 256) :
    (q - k).toNat < 256 ∧ ((q - k).setWidth 8 : U8).toNat + n = q.toNat := by
  subst hk
  have fits : (q - k).toNat < 256 := by
    rw [sub_toNat low]
    omega
  refine ⟨fits, ?_⟩
  rw [narrow_toNat fits, sub_toNat low]
  omega

theorem Rates.InRange.bytes (h : r.InRange) :
    ((r.prescaler - 1).toNat < 256 ∧ ((r.prescaler - 1).setWidth 8 : U8).toNat + 1 = r.prescaler.toNat) ∧
    ((r.halfPeriod - 7).toNat < 256 ∧ ((r.halfPeriod - 7).setWidth 8 : U8).toNat + 7 = r.halfPeriod.toNat) ∧
    ((r.halfPeriod - 5).toNat < 256 ∧ ((r.halfPeriod - 5).setWidth 8 : U8).toNat + 5 = r.halfPeriod.toNat) := by
  obtain ⟨⟨one, p⟩, seven, q⟩ := h.dividers
  exact ⟨divider_toNat rfl one (by omega), divider_toNat rfl seven (by omega),
    divider_toNat rfl (by omega) (by omega)⟩

theorem exact_of_inRange (h : r.InRange) : ∀ c, .calc c ∈ (configureClock r).ops → c.Exact := by
  obtain ⟨int, double⟩ := h.divisors
  obtain ⟨⟨one, -⟩, seven, -⟩ := h.dividers
  obtain ⟨⟨psc, -⟩, ⟨scll, -⟩, sclh, -⟩ := h.bytes
  intro c mem
  simp only [configureClock_ops, List.mem_cons, ClockOp.calc.injEq, reduceCtorEq, List.not_mem_nil, false_or,
    or_false] at mem
  rcases mem with rfl | rfl | rfl | rfl | rfl | rfl | rfl | rfl | rfl | rfl | rfl
  · exact int
  · exact one
  · exact h.double
  · exact double
  · exact seven
  · exact h.double
  · exact double
  · exact Nat.le_trans (by decide) seven
  · exact psc
  · exact scll
  · exact sclh

theorem configureClock_written (h : r.InRange) : ∃ psc scll sclh,
    (configureClock r).ops.filterMap ClockOp.written = [(.psc, psc), (.scll, scll), (.sclh, sclh)] ∧
      r.Programs .psc psc ∧ r.Programs .scll scll ∧ r.Programs .sclh sclh := by
  obtain ⟨⟨-, psc⟩, ⟨-, scll⟩, -, sclh⟩ := h.bytes
  rw [prescaler_toNat] at psc
  rw [halfPeriod_toNat h.double] at scll sclh
  exact ⟨_, _, _, rfl, psc, scll, sclh⟩

/-! The whole function -/

theorem drv_timing {α : Type} (m : Code α) : (drv m).ops.filter ClockOp.timing = [] := by
  refine List.filter_eq_nil_iff.2 fun op mem => ?_
  obtain ⟨o, -, rfl⟩ := List.mem_map.1 mem
  exact Bool.false_ne_true

theorem drv_then {α β : Type} (m : Code α) (f : α → ClockCode β) :
    (drv m >>= f).ops.filter ClockOp.timing = (f m.val).ops.filter ClockOp.timing := by
  rw [bind_ops, List.filter_append, drv_timing]
  rfl

/-- Nothing else than the clock touches the clock. -/
theorem configureAt_timing (r : Rates) (x : I2cInit) (v : Int) :
    (cottiI2cConfigureAt r x v).ops.filter ClockOp.timing =
      if (prvResetI2c x.syss).1 = 0 then (configureClock r).ops else [] := by
  unfold cottiI2cConfigureAt
  rw [drv_then, drv_then, drv_then]
  by_cases reset : (prvReset x.syss).val = 0
  · rw [if_neg (not_not.2 reset), if_pos ((prvReset_zero_iff _).1 reset), drv_then, bind_ops, List.filter_append,
      drv_then, drv_then]
    have rest : ∀ v w : Int, (if v < 0 then drv (i2cPtrError v) else
        if w < 0 then drv (i2cPtrError w) else do
          drv (emit .requestIrq)
          drv (emit (.release .pinmuxNode))
          drv (emit (.release .clkNode))
          pure 0).ops.filter ClockOp.timing = [] := by
      intro v w
      split
      · exact drv_timing _
      split
      · exact drv_timing _
      rw [drv_then, drv_then, drv_then]
      rfl
    rw [rest, List.append_nil]
    rfl
  · rw [if_pos reset, if_neg fun zero => reset ((prvReset_zero_iff _).2 zero)]
    exact drv_timing _

/-- The clock is programmed exactly if the registers are mapped and the controller
comes out of reset. -/
theorem initAt_timing (r : Rates) (x : I2cInit) : (cottiI2cInitAt r x).ops.filter ClockOp.timing =
    if x.Maps ∧ (prvResetI2c x.syss).1 = 0 then (configureClock r).ops else [] := by
  unfold cottiI2cInitAt
  split
  · next maps =>
    rw [drv_then, configureAt_timing]
    simp only [maps, true_and]
  · next early => rw [drv_timing, if_neg fun h => early h.1]

/-- Only the clock computes. -/
theorem calc_mem {c : Calc} {m : ClockCode Int} : .calc c ∈ m.ops ↔ .calc c ∈ m.ops.filter ClockOp.timing := by
  simp [ClockOp.timing]

/-- Only the clock writes timing registers. -/
theorem written_filter (ops : List ClockOp) :
    ops.filterMap ClockOp.written = (ops.filter ClockOp.timing).filterMap ClockOp.written := by
  rw [List.filterMap_filter]
  refine List.filterMap_congr fun op _ => ?_
  cases op <;> rfl

end Clock

/-- **Clock programming.** When `cotti_i2c_init` gets as far as the timing registers, its
arithmetic is exact and it writes the dividers that the three rates ask for, if and only
if these dividers fit into the registers. Otherwise it computes none of this and writes
no timing register. -/
theorem clock_programmed_iff (r : Rates) (x : I2cInit) :
    (x.Maps ∧ OutOfReset x.syss → (ClockProgrammed r (cottiI2cInitAt r x) ↔ r.InRange)) ∧
    (¬ (x.Maps ∧ OutOfReset x.syss) → ∀ op ∈ (cottiI2cInitAt r x).ops, op.timing = false) := by
  have timing := initAt_timing r x
  constructor
  · intro reached
    rw [if_pos ⟨reached.1, (reset_zero_iff _).2 reached.2⟩] at timing
    constructor
    · intro sound
      refine inRange_of_exact fun c mem => sound.exact c (calc_mem.2 ?_)
      rwa [timing]
    · intro inRange
      refine ⟨fun c mem => ?_, ?_⟩
      · rw [calc_mem, timing] at mem
        exact exact_of_inRange inRange c mem
      · rw [written_filter, timing]
        exact configureClock_written inRange
  · intro elsewhere
    rw [if_neg fun h => elsewhere ⟨h.1, (reset_zero_iff _).1 h.2⟩, List.filter_eq_nil_iff] at timing
    exact fun op mem => by simpa using timing op mem

/-- The rates of a 48 MHz functional clock, 12 MHz inside the controller and 100 kHz
on the bus. -/
example : (configureClock ⟨48000000, 12000000, 100000⟩).ops.filterMap ClockOp.written =
    [(.psc, 3), (.scll, 53), (.sclh, 55)] := by decide

/-- The device tree says 0 Hz for the internal clock. -/
def stoppedClock : Rates := { fclkRate := 48000000, intClkRate := 0, bitRate := 100000 }

/-- `cotti_i2c_init` divides by it. -/
theorem stoppedClock_not_programmed :
    ¬ ∀ r x, RefusesClock (cottiI2cInitAt r x) ∨ ClockProgrammed r (cottiI2cInitAt r x) := by
  intro all
  have reached : goodProbe.i2c.Maps ∧ (prvResetI2c goodProbe.i2c.syss).1 = 0 :=
    ⟨by decide, (reset_zero_iff _).2 ⟨0, by decide, by decide⟩⟩
  have timing := initAt_timing stoppedClock goodProbe.i2c
  rw [if_pos reached] at timing
  rcases all stoppedClock goodProbe.i2c with ⟨-, none⟩ | sound
  · rw [written_filter, timing] at none
    cases none
  · refine sound.exact (.div 48000000 0) (calc_mem.2 ?_) rfl
    rw [timing]
    decide

end Beaglebone.Driver
