import Beaglebone.Driver.Probe
import Beaglebone.Kernel.Modules
import Beaglebone.Machine.Callback

/-!
# Timers and interrupts at the unloading of a module

The functions of this repository that a timer or an interrupt calls, and the exit
functions that should end those calls. `del_timer` does not wait for a callback that is
running, `hrtimer_cancel` and `free_irq` do. In five modules every statement of every
call finds the module and what it uses; in the other four, and in one more run of
`kernel/022_completion`, a call may go on without them (`callbacks_inOrder`).
-/

namespace Beaglebone.Kernel.Callbacks

open Machine
open Modules (Undo Call Code)

/-- What the callbacks use besides the static variables of their module. -/
inductive Needs where
  | led
  /-- the mapping behind `i2c_ptr` -/
  | i2c
  deriving DecidableEq, Repr

/-- What a statement of an exit function means for the callback. -/
def stop : Undo → Option (Stop Needs)
  | .ledFree => some (.release .led)
  | .delTimer => some .cancel
  | .freeIrq | .hrtimerCancel => some .await
  | _ => none

/-- The same for `cotti_i2c.c`. -/
def opStop : Driver.Op → Option (Stop Needs)
  | .iounmapNonNull .i2c => some (.release .i2c)
  | .freeIrq => some .await
  | _ => none

/-- A callback, and an exit function among those of the other modules. -/
def ended (c : Code) (uses : List Needs) (again : Bool) : Callback Needs where
  uses := uses
  again := again
  exit := c.exit.filterMap stop

/-- The same when the init function takes the error exit of a call. -/
def refused (c : Code) (call : Call) (uses : List Needs) (again : Bool) : Callback Needs where
  uses := uses
  again := again
  exit := ((c.init.filter (·.1 = call)).flatMap fun g => c.undo g.2.2).filterMap stop

/-- `timer_callback` of `kernel/006_timer` -/
def timer : Callback Needs := ended Modules.timer [.led] false

/-- `timer_callback` of `kernel/007_high_res_timer`, which returns `HRTIMER_NORESTART` -/
def highResTimer : Callback Needs := ended Modules.highResTimer [] false

/-- `gpio_irq_handler` of `kernel/008_gpio_irq` -/
def gpioIrq : Callback Needs := ended Modules.gpioIrq [] true

/-- `gpio_irq_handler` of `kernel/012_send_signal` -/
def sendSignal : Callback Needs := ended Modules.sendSignal [] true

/-- `gpio_irq_handler` of `kernel/013_poll` -/
def poll : Callback Needs := ended Modules.poll [] true

/-- `timer_callback` of `kernel/022_completion` -/
def completion : Callback Needs := ended Modules.completion [] false

/-- The same when the second `mod_timer` returns 1, of a timer that is still pending:
`my_module_init` returns -1, and the module is gone. -/
def completionRefused : Callback Needs := refused Modules.completion .modTimerAgain [] false

/-- `Mi_handler_interrupt` of `driver.c` -/
def hostController : Callback Needs := ended Modules.hostController [] true

/-- `driver_isr` of `prueba-td3.c`; the device releases what is its own in reverse order. -/
def pruebaTd3 : Callback Needs where
  uses := []
  again := true
  exit := Modules.pruebaTd3.exit.filterMap stop ++ [.await]

/-- `prv_isr` of `bmp280_driver/src/cotti_i2c.c`, and `cotti_i2c_deinit` -/
def cottiI2c : Callback Needs where
  uses := [.i2c]
  again := true
  exit := Driver.cottiI2cDeinit.ops.filterMap opStop

inductive Source where
  | timer
  | highResTimer
  | gpioIrq
  | sendSignal
  | poll
  | completion
  | completionRefused
  | hostController
  | pruebaTd3
  | cottiI2c
  deriving DecidableEq, Repr

def Source.callback : Source → Callback Needs
  | timer => Callbacks.timer
  | highResTimer => Callbacks.highResTimer
  | gpioIrq => Callbacks.gpioIrq
  | sendSignal => Callbacks.sendSignal
  | poll => Callbacks.poll
  | completion => Callbacks.completion
  | completionRefused => Callbacks.completionRefused
  | hostController => Callbacks.hostController
  | pruebaTd3 => Callbacks.pruebaTd3
  | cottiI2c => Callbacks.cottiI2c

/-- **Callbacks end in time.** Over every interleaving of the calls, their statements and
those of the exit function, in exactly these modules. -/
theorem callbacks_inOrder (s : Source) : s.callback.InOrder ↔
    s ∈ [Source.highResTimer, .gpioIrq, .sendSignal, .poll, .pruebaTd3] := by
  rw [Callback.inOrder_iff]
  cases s <;> decide

end Beaglebone.Kernel.Callbacks
