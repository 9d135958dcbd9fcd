import Beaglebone.Driver.Resources
import Beaglebone.Machine.Ladder

/-!
# Loading and unloading the other modules of `kernel/`

The init and exit functions of seventeen modules (the probe and remove functions of
`driver.c` and `prueba-td3.c` among them), and `dt_probe` and `dt_remove` of one of them,
as the calls that they make, the test of each result, the label that a failed test jumps
to, and what stands at the labels and in the exit function. `class_create`,
`device_create` and the calls that start a thread report a failure by an error pointer,
which most of these functions compare with NULL. `class_destroy` ignores such a pointer,
`device_destroy` and `kthread_stop` follow it.

Whatever fails and however often a module is loaded, every load and unload comes to its
end, and a resource is held while the module is loaded and released once for each time
that it is acquired, exactly while three things do not happen (`released_iff`): a load
goes on without it; an exit follows an error pointer, of which the thread dies (`relies`,
`reliesAtExit`); an exit leaves it behind, which happens to the device numbers, the cdev,
the interrupt, the timer and `my_led` only (`leaves`, `keeps`).
-/

namespace Beaglebone.Kernel.Modules

open Machine
open Driver (ErrPtr)

inductive Resource where
  /-- the device numbers -/
  | region
  | cls
  | device
  | cdev
  | led
  | button
  | irq
  | kthread1
  | kthread2
  | timer
  | driver
  | folder
  | file
  /-- the mapping of `CM_PER` -/
  | cmPer
  /-- `my_led` of `kernel/018_dt_gpio` -/
  | gpiod
  deriving DecidableEq, Repr

inductive Call where
  | allocChrdevRegion
  | classCreate
  | deviceCreate
  | cdevAdd
  /-- `gpio_request(LED_PIN, LED_NAME)` -/
  | ledRequest
  /-- `gpio_direction_output(LED_PIN, LED_RESET_STATE)` -/
  | ledDirection
  /-- `gpio_request(BUTTON_PIN, BUTTON_NAME)` -/
  | buttonRequest
  /-- `gpio_direction_input(BUTTON_PIN)` -/
  | buttonDirection
  | requestIrq
  /-- `kthread1 = kthread_create(…)` or `kthread_run(…)` -/
  | kthread1
  | kthread2
  | modTimer
  /-- the second one of `kernel/022_completion`, of the same timer -/
  | modTimerAgain
  | hrtimerStart
  | platformDriverRegister
  /-- `proc_mkdir` or `kobject_create_and_add` -/
  | folderCreate
  /-- `proc_create` or `sysfs_create_file` -/
  | fileCreate
  /-- `ioremap(CM_PER, CM_PER_SIZE)` -/
  | ioremap
  /-- `device_property_present(dev, DT_PROPERTY_LABEL)`, and of the others -/
  | labelPresent
  | myValuePresent
  | gpioPresent
  | readLabel
  | readMyValue
  | gpiodGet
  deriving DecidableEq, Repr

def Call.takes : Call → Option Resource
  | allocChrdevRegion => some .region
  | classCreate => some .cls
  | deviceCreate => some .device
  | cdevAdd => some .cdev
  | ledRequest => some .led
  | buttonRequest => some .button
  | ledDirection | buttonDirection | labelPresent | myValuePresent | gpioPresent | readLabel | readMyValue
  | modTimerAgain => none
  | requestIrq => some .irq
  | kthread1 => some .kthread1
  | kthread2 => some .kthread2
  | modTimer | hrtimerStart => some .timer
  | platformDriverRegister => some .driver
  | folderCreate => some .folder
  | fileCreate => some .file
  | ioremap => some .cmPer
  | gpiodGet => some .gpiod

inductive Undo where
  /-- `unregister_chrdev(device_number, …)`, of a major number that nobody has -/
  | unregisterChrdev
  | unregisterChrdevRegion
  | classDestroy
  | deviceDestroy
  | cdevDel
  | ledFree
  | buttonFree
  | freeIrq
  | kthreadStop1
  | kthreadStop2
  | delTimer
  | hrtimerCancel
  | platformDriverUnregister
  /-- `proc_remove(proc_folder)` or `kobject_put(folder)` -/
  | folderRemove
  | fileRemove
  /-- `iounmap(Host_Controller.cm_per)` -/
  | iounmapCmPer
  /-- `iounmap(Host_Controller.i2c2)`, which is NULL -/
  | iounmapI2c2
  deriving DecidableEq, Repr

/-- What an undoing follows the pointer to. -/
def Resource.needs : Resource → List Resource
  | device => [.cls]
  | kthread1 => [.kthread1]
  | kthread2 => [.kthread2]
  | _ => []

def Undo.gives : Undo → Option Resource
  | unregisterChrdev | iounmapI2c2 => none
  | unregisterChrdevRegion => some .region
  | classDestroy => some .cls
  | deviceDestroy => some .device
  | cdevDel => some .cdev
  | ledFree => some .led
  | buttonFree => some .button
  | freeIrq => some .irq
  | kthreadStop1 => some .kthread1
  | kthreadStop2 => some .kthread2
  | delTimer | hrtimerCancel => some .timer
  | platformDriverUnregister => some .driver
  | folderRemove => some .folder
  | fileRemove => some .file
  | iounmapCmPer => some .cmPer

/-- The test of a result. -/
inductive Test where
  /-- of a return code, or of a pointer that is NULL on every error -/
  | failed
  /-- `== NULL`, of a pointer that may be an error pointer -/
  | null
  /-- `IS_ERR` -/
  | isErr
  /-- none -/
  | unchecked
  deriving DecidableEq, Repr

/-- What becomes of a result. A return code that is not 0 counts as `err`. -/
def Test.outcome : Test → ErrPtr → Outcome
  | _, .ok => .succeeds
  | failed, _ => .refused
  | null, .null => .refused
  | null, .err => .overlooked
  | isErr, .err => .refused
  | isErr, .null => .overlooked
  | unchecked, _ => .overlooked

inductive Label where
  | chrdevError
  | classError
  | deviceError
  | cdevError
  | ledError
  | buttonError
  | kthreadError
  | kthread1Error
  | kthread2Error
  | gpioRequestError
  | folderError
  | fileError
  deriving DecidableEq, Repr

/-- What a test that finds a failure does: jump to a label, or return after some calls. -/
inductive OnError where
  | goto (l : Label)
  | leave (undo : List Undo)

structure Code where
  init : List (Call × Test × OnError)
  /-- the labels in their order, with what stands between each and the next -/
  labels : List (Label × List Undo)
  exit : List Undo

/-- What an error exit executes: from its label on, through all the labels below. -/
def Code.undo (c : Code) : OnError → List Undo
  | .goto l => (c.labels.dropWhile (·.1 ≠ l)).flatMap (·.2)
  | .leave undo => undo

def Code.ladder (c : Code) : Ladder Call Resource where
  rungs := c.init.map fun (call, _, e) => ⟨call, call.takes, (c.undo e).filterMap Undo.gives⟩
  exit := c.exit.filterMap Undo.gives
  needs := Resource.needs

/-- The outcome of each call. No device is created in a class that is an error pointer. -/
def Code.outcome (c : Code) (x : Call → ErrPtr) (call : Call) : Outcome :=
  let r := if call = .deviceCreate ∧ x .classCreate ≠ .ok then .err else x call
  match c.init.find? (·.1 = call) with
  | some (_, test, _) => test.outcome r
  | none => .succeeds

/-! ## The functions -/

/-- The beginning of the init function of a character device. -/
def createDevice : List (Call × Test × OnError) := [
  (.allocChrdevRegion, .failed, .goto .chrdevError),
  (.classCreate, .null, .goto .classError),
  (.deviceCreate, .null, .goto .deviceError),
  (.cdevAdd, .failed, .goto .cdevError)]

/-- Its last labels. -/
def deviceLabels : List (Label × List Undo) := [
  (.cdevError, [.deviceDestroy]),
  (.deviceError, [.classDestroy]),
  (.classError, [.unregisterChrdev]),
  (.chrdevError, [])]

/-- The end of its exit function. -/
def removeDevice : List Undo := [.deviceDestroy, .classDestroy, .unregisterChrdev]

/-- `kernel/002_char_device` -/
def charDevice : Code where
  init := createDevice
  labels := deviceLabels
  exit := .cdevDel :: removeDevice

/-- `kernel/003_gpio_driver` -/
def gpioDriver : Code where
  init := createDevice ++ [
    (.ledRequest, .failed, .goto .cdevError),
    (.ledDirection, .failed, .goto .ledError),
    (.buttonRequest, .failed, .goto .ledError),
    (.buttonDirection, .failed, .goto .buttonError)]
  labels := [(.buttonError, [.buttonFree]), (.ledError, [.ledFree])] ++ deviceLabels
  exit := [.buttonFree, .ledFree, .cdevDel] ++ removeDevice

/-- `kernel/006_timer` -/
def timer : Code where
  init := [
    (.ledRequest, .failed, .goto .gpioRequestError),
    (.ledDirection, .failed, .goto .ledError),
    (.modTimer, .failed, .goto .ledError)]
  labels := [(.ledError, [.ledFree]), (.gpioRequestError, [])]
  exit := [.ledFree, .delTimer]

/-- `kernel/007_high_res_timer` -/
def highResTimer : Code where
  init := [(.hrtimerStart, .unchecked, .leave [])]
  labels := []
  exit := [.hrtimerCancel]

/-- `kernel/008_gpio_irq` -/
def gpioIrq : Code where
  init := [
    (.buttonRequest, .failed, .goto .gpioRequestError),
    (.buttonDirection, .failed, .goto .buttonError),
    (.requestIrq, .failed, .goto .buttonError)]
  labels := [(.buttonError, [.buttonFree]), (.gpioRequestError, [])]
  exit := [.freeIrq, .buttonFree]

/-- `kernel/010_ioctl` -/
def ioctl : Code where
  init := createDevice
  labels := deviceLabels
  exit := .cdevDel :: removeDevice

/-- `kernel/011_threads` -/
def threads : Code where
  init := [(.kthread1, .null, .goto .kthread1Error), (.kthread2, .null, .goto .kthread2Error)]
  labels := [(.kthread2Error, [.kthreadStop1]), (.kthread1Error, [])]
  exit := [.kthreadStop1, .kthreadStop2]

/-- `my_module_init` of `kernel/012_send_signal` and of `kernel/013_poll` -/
def buttonDevice : List (Call × Test × OnError) := createDevice ++ [
  (.buttonRequest, .failed, .goto .cdevError),
  (.buttonDirection, .failed, .goto .buttonError),
  (.requestIrq, .failed, .goto .buttonError)]

/-- `kernel/012_send_signal` -/
def sendSignal : Code where
  init := buttonDevice
  labels := (.buttonError, [.buttonFree]) :: deviceLabels
  exit := [.freeIrq, .buttonFree] ++ removeDevice

/-- `kernel/013_poll` -/
def poll : Code where
  init := buttonDevice
  labels := (.buttonError, [.buttonFree]) :: deviceLabels
  exit := [.freeIrq, .buttonFree] ++ removeDevice

/-- `kernel/014_waitqueue` -/
def waitqueue : Code where
  init := createDevice ++ [(.kthread1, .null, .goto .cdevError), (.kthread2, .null, .goto .kthreadError)]
  labels := (.kthreadError, [.kthreadStop1]) :: deviceLabels
  exit := [.kthreadStop1, .kthreadStop2] ++ removeDevice

/-- `kernel/015_procfs` -/
def procfs : Code where
  init := [(.folderCreate, .failed, .goto .folderError), (.fileCreate, .failed, .goto .fileError)]
  labels := [(.fileError, [.folderRemove]), (.folderError, [])]
  exit := [.fileRemove, .folderRemove]

/-- `kernel/016_sysfs` -/
def sysfs : Code where
  init := [(.folderCreate, .failed, .goto .folderError), (.fileCreate, .failed, .goto .fileError)]
  labels := [(.fileError, [.folderRemove]), (.folderError, [])]
  exit := [.fileRemove, .folderRemove]

/-- `kernel/017_reading_device_tree` -/
def readingDeviceTree : Code where
  init := [(.platformDriverRegister, .failed, .leave [])]
  labels := []
  exit := [.platformDriverUnregister]

/-- `kernel/018_dt_gpio` -/
def dtGpio : Code where
  init := createDevice ++ [(.platformDriverRegister, .failed, .goto .cdevError)]
  labels := deviceLabels
  exit := .platformDriverUnregister :: removeDevice

/-- `dt_probe` and `dt_remove` of `kernel/018_dt_gpio` -/
def dtGpioProbe : Code where
  init := [
    (.labelPresent, .failed, .leave []),
    (.myValuePresent, .failed, .leave []),
    (.gpioPresent, .failed, .leave []),
    (.readLabel, .failed, .leave []),
    (.readMyValue, .failed, .leave []),
    (.gpiodGet, .isErr, .leave [])]
  labels := []
  exit := []

/-- `kernel/022_completion` -/
def completion : Code where
  init := [(.modTimer, .failed, .leave []), (.modTimerAgain, .failed, .leave [])]
  labels := []
  exit := [.delTimer]

/-- `funcion_probe` and `funcion_remove` of `driver.c` -/
def hostController : Code where
  init := [(.requestIrq, .failed, .leave []), (.ioremap, .failed, .leave [])]
  labels := []
  -- `free_irq` is commented out
  exit := [.iounmapCmPer, .iounmapI2c2]

/-- `driver_probe` and `driver_remove` of `prueba-td3.c`, after the calls whose resources
the device itself releases. -/
def pruebaTd3 : Code where
  init := [
    (.allocChrdevRegion, .failed, .leave []),
    (.classCreate, .isErr, .leave [.unregisterChrdevRegion]),
    (.deviceCreate, .isErr, .leave [.classDestroy, .unregisterChrdevRegion]),
    (.cdevAdd, .failed, .leave [.deviceDestroy, .classDestroy, .unregisterChrdevRegion])]
  labels := []
  exit := [.cdevDel, .deviceDestroy, .classDestroy, .unregisterChrdevRegion]

/-! ## Runs -/

inductive Module where
  | charDevice
  | gpioDriver
  | timer
  | highResTimer
  | gpioIrq
  | ioctl
  | threads
  | sendSignal
  | poll
  | waitqueue
  | procfs
  | sysfs
  | readingDeviceTree
  | dtGpio
  | dtGpioProbe
  | completion
  | hostController
  | pruebaTd3
  deriving DecidableEq, Repr

def Module.code : Module → Code
  | charDevice => Modules.charDevice
  | gpioDriver => Modules.gpioDriver
  | timer => Modules.timer
  | highResTimer => Modules.highResTimer
  | gpioIrq => Modules.gpioIrq
  | ioctl => Modules.ioctl
  | threads => Modules.threads
  | sendSignal => Modules.sendSignal
  | poll => Modules.poll
  | waitqueue => Modules.waitqueue
  | procfs => Modules.procfs
  | sysfs => Modules.sysfs
  | readingDeviceTree => Modules.readingDeviceTree
  | dtGpio => Modules.dtGpio
  | dtGpioProbe => Modules.dtGpioProbe
  | completion => Modules.completion
  | hostController => Modules.hostController
  | pruebaTd3 => Modules.pruebaTd3

inductive Action where
  /-- the init function runs; `x` are the results of the calls -/
  | load (x : Call → ErrPtr)
  | unload

/-- The action with the outcomes that the code makes of the results. -/
def Module.label (m : Module) : Action → LoadAction Call
  | .load x => .load (m.code.outcome x)
  | .unload => .unload

def step (m : Module) (s : Loading Resource) (a : Action) : Option (Loading Resource) :=
  m.code.ladder.step s (m.label a)

namespace Module

def calls (m : Module) : List Call := m.code.init.map (·.1)

/-- The calls after `c`. -/
def after (m : Module) (c : Call) : List Call := (m.calls.dropWhile (· ≠ c)).tail

/-- What it has acquired before. -/
def gained (m : Module) (x : Call → ErrPtr) : List Resource :=
  Machine.gained (m.code.outcome x) m.code.ladder.rungs

/-- The exit function leaves `r` behind. -/
def keeps (m : Module) : Resource → Bool
  | .region => m ∈ [charDevice, gpioDriver, ioctl, sendSignal, poll, waitqueue, dtGpio]
  | .cdev => m ∈ [sendSignal, poll, waitqueue, dtGpio]
  | .irq => m = hostController
  | .gpiod => m = dtGpioProbe
  | _ => false

/-- The pointers that the error exit of `c` follows. -/
def relies (m : Module) (c : Call) : List Resource :=
  (if c ∈ m.after .kthread1 then [.kthread1] else []) ++ (if c ∈ m.after .deviceCreate then [.cls] else [])

end Module

section

variable {m : Module} {r : Resource} {x : Call → ErrPtr}

end

end Beaglebone.Kernel.Modules
