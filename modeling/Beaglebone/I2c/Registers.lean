import Beaglebone.Machine.Poll

/-!
# The registers of the I2C controller and the polls before START

Masks and words of `cotti_i2c.h`, the predicates `prv_is_…` on them with the
return types of the source, and the bounded polls `prv_wait_for_bus_busy` and
`prv_reset_i2c` over an endless stream of register values.
-/

namespace Beaglebone.I2c

open Machine

/-! IRQSTATUS -/

def i2cIrqBb : U16 := 1#16 <<< 12
def i2cIrqXrdy : U16 := 1#16 <<< 4
def i2cIrqRrdy : U16 := 1#16 <<< 3
def i2cIrqArdy : U16 := 1#16 <<< 2
def i2cIrqNack : U16 := 1#16 <<< 1
def i2cIrqAl : U16 := 1#16 <<< 0

/-- What `cotti_i2c_init` writes to IRQENABLE_SET; nothing changes it later. -/
def irqEnabled : U16 := i2cIrqXrdy ||| i2cIrqRrdy ||| i2cIrqNack ||| i2cIrqArdy ||| i2cIrqAl

/-! CON -/

def i2cBitEnable : U32 := 1#32 <<< 15
def i2cBitMasterMode : U32 := 1#32 <<< 10
def i2cBitTx : U32 := 1#32 <<< 9
def i2cBitStop : U32 := 1#32 <<< 1
def i2cBitStart : U32 := 1#32 <<< 0

/-! Clock control -/

def clkIdlest : U32 := 3#32 <<< 16

/-! The `xx_is_yy` functions. `prv_is_irq_triggered` returns the masked 16-bit
word as a `u8`. -/

def prvIsResetting (syss : U8) : U8 := if syss &&& 1 = 0 then 1 else 0

def prvIsIrqTriggered (irqstatus irq : U16) : U8 := (irqstatus &&& irq).setWidth 8

def prvIsClkDisabled (clkctrl : U32) : U32 := clkctrl &&& clkIdlest

/-- One sample of the polling loop of `prv_wait_for_bus_busy`: the IRQSTATUS word
and whether `lock_bus` is held. -/
structure Sample where
  status : U16
  locked : Bool
  deriving DecidableEq, Repr

/-- The loop condition of `prv_wait_for_bus_busy`. -/
def Sample.busy (x : Sample) : Bool := prvIsIrqTriggered x.status i2cIrqBb != 0 || x.locked

/-- Bit 12 of the sampled word. -/
def Sample.busBusy (x : Sample) : Bool := isSet x.status i2cIrqBb

/-- The iteration that gives up in `prv_wait_for_bus_busy`. -/
def busPollLimit : U8 := 100

/-- `prv_wait_for_bus_busy`: its return value and the index of its last sample. -/
def prvWaitForBusBusy (sample : Nat → Sample) : Int × Nat :=
  match poll busPollLimit fun n => (sample n).busy with
  | (true, n) => (0, n)
  | (false, n) => (-1, n)

/-- The polling loop of `prv_reset_i2c`: its return value and the index of its
last sample of SYSS. -/
def prvResetI2c (syss : Nat → U8) : Int × Nat :=
  match poll 10 fun n => prvIsResetting (syss n) != 0 with
  | (true, n) => (0, n)
  | (false, n) => (-1, n)

/-- The narrow return type drops bit 12: the bus-busy test is always false. -/
theorem prvIsIrqTriggered_bb (w : U16) : prvIsIrqTriggered w i2cIrqBb = 0 := by
  unfold prvIsIrqTriggered i2cIrqBb
  have low : ∀ i < 8, (1#16 <<< 12).getLsbD i = false := by decide
  ext i hi
  simp only [BitVec.getElem_setWidth, BitVec.getLsbD_and, low i hi]
  simp

/-- So the loop waits for the mutex only. -/
@[simp] theorem Sample.busy_eq (x : Sample) : x.busy = x.locked := by
  simp [Sample.busy, prvIsIrqTriggered_bb]

end Beaglebone.I2c
