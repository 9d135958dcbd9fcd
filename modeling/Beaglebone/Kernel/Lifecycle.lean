import Beaglebone.Driver.Resources
import Beaglebone.Machine.Ledger
import Beaglebone.Machine.Run

/-!
# Loading and unloading `kernel/004_pwm_driver`, `kernel/005_bmp280`, `kernel/019_dt_i2c`

The init and exit functions of the three modules (of the last, the probe and remove
functions), as scripts over the results of the external calls they make. Their error
exits leave the cdev registered, and return the 0 of the last call when the error is
that of a pointer; `pwm_request` is taken to have failed when it has not; no error
pointer of `class_create` or `device_create` is noticed; and `i2c_remove` does not
delete the cdev. A run is accounted for exactly if it meets none of this
(`released_once_iff`).
-/

namespace Beaglebone.Kernel.Lifecycle

open Machine Script
open Driver (ErrPtr)

inductive Resource where
  | cls
  | device
  | cdev
  | pwm
  | adapter
  | client
  | driver
  deriving DecidableEq, Repr

/-- The static variables of a module, and the ledger of what it has acquired. The region
of device numbers is not in it. -/
structure World where
  deviceClass : ErrPtr := .null
  pwm0 : ErrPtr := .null
  bmp280I2cClient : ErrPtr := .null
  /-- history: the last init function has taken an error exit -/
  errorExit : Bool := false
  log : List (Entry Resource) := []

/-- An external call with its result. -/
inductive Op where
  | allocChrdevRegion
  /-- `unregister_chrdev(device_number, …)`, of a major number that nobody has -/
  | unregisterChrdev
  /-- `device_class = class_create(…)` -/
  | classCreate (r : ErrPtr)
  | classDestroy
  | deviceCreate (r : ErrPtr)
  | deviceDestroy
  | cdevAdd
  | cdevDel
  /-- `pwm0 = pwm_request(…)` -/
  | pwmRequest (r : ErrPtr)
  | pwmConfig
  | pwmEnable
  | pwmDisable
  | pwmFree
  | i2cGetAdapter (ok : Bool)
  | i2cPutAdapter
  /-- `bmp280_i2c_client = i2c_new_client_device(…)` -/
  | i2cNewClientDevice (r : ErrPtr)
  | i2cUnregisterDevice
  | i2cAddDriver
  | i2cDelDriver
  /-- `bmp280_i2c_client = client`, the client of the probe -/
  | setClient
  /-- a transfer through `bmp280_i2c_client` -/
  | smbus
  /-- history: see `World.errorExit` -/
  | errorExit
  deriving DecidableEq, Repr

namespace World

def acquire (w : World) (r : Resource) : World := { w with log := w.log ++ [.acquire r] }

def release (w : World) (r : Resource) : World := { w with log := w.log ++ [.release r] }

def held (w : World) (r : Resource) : Bool := custody w.log r = some true

/-- The effect of a call; `none` when the thread dies in it, at an error pointer. -/
def exec (w : World) : Op → Option World
  | .allocChrdevRegion | .unregisterChrdev => some w
  | .classCreate .ok => some ({ w with deviceClass := .ok }.acquire .cls)
  | .classCreate r => some { w with deviceClass := r }
  | .classDestroy => some (if w.deviceClass = .ok then w.release .cls else w)
  -- no device is created in a class that is an error pointer
  | .deviceCreate r => some (if r = .ok ∧ w.deviceClass = .ok then w.acquire .device else w)
  | .deviceDestroy => if w.deviceClass = .err then none else
    -- nothing happens if the class exists and has no such device
    some (if w.held .cls && !w.held .device then w else w.release .device)
  | .cdevAdd => some (w.acquire .cdev)
  | .cdevDel => some (w.release .cdev)
  | .pwmRequest .ok => some ({ w with pwm0 := .ok }.acquire .pwm)
  | .pwmRequest r => some { w with pwm0 := r }
  -- NULL is refused
  | .pwmConfig | .pwmEnable | .pwmDisable => if w.pwm0 = .err then none else some w
  | .pwmFree => if w.pwm0 = .err then none else some (if w.pwm0 = .ok then w.release .pwm else w)
  | .i2cGetAdapter ok => some (if ok then w.acquire .adapter else w)
  | .i2cPutAdapter => some (w.release .adapter)
  | .i2cNewClientDevice .ok => some ({ w with bmp280I2cClient := .ok }.acquire .client)
  | .i2cNewClientDevice r => some { w with bmp280I2cClient := r }
  | .i2cUnregisterDevice => some (if w.bmp280I2cClient = .ok then w.release .client else w)
  | .i2cAddDriver => some (w.acquire .driver)
  | .i2cDelDriver => some (w.release .driver)
  | .setClient => some { w with bmp280I2cClient := .ok }
  | .smbus => if w.bmp280I2cClient = .ok then some w else none
  | .errorExit => some { w with errorExit := true }

section

variable (w : World) (q r : Resource)

@[simp] theorem acquire_deviceClass : (w.acquire q).deviceClass = w.deviceClass := rfl
@[simp] theorem acquire_pwm0 : (w.acquire q).pwm0 = w.pwm0 := rfl
@[simp] theorem acquire_client : (w.acquire q).bmp280I2cClient = w.bmp280I2cClient := rfl
@[simp] theorem acquire_errorExit : (w.acquire q).errorExit = w.errorExit := rfl
@[simp] theorem release_deviceClass : (w.release q).deviceClass = w.deviceClass := rfl
@[simp] theorem release_pwm0 : (w.release q).pwm0 = w.pwm0 := rfl
@[simp] theorem release_client : (w.release q).bmp280I2cClient = w.bmp280I2cClient := rfl
@[simp] theorem release_errorExit : (w.release q).errorExit = w.errorExit := rfl

@[simp] theorem custody_acquire : custody (w.acquire q).log r =
    if q = r then (if custody w.log r = some false then some true else none) else custody w.log r :=
  custody_concat ..

@[simp] theorem custody_release : custody (w.release q).log r =
    if q = r then (if custody w.log r = some true then some false else none) else custody w.log r :=
  custody_concat ..

end

end World

/-- The results of the external calls of one init function. Each module makes the first
four, and uses of the others those of the calls that it makes. -/
structure Calls where
  region : Int
  cls : ErrPtr
  device : ErrPtr
  cdev : Int
  pwm : ErrPtr := .ok
  adapter : Bool := true
  client : ErrPtr := .ok
  addDriver : Int := 0
  /-- `client->addr` -/
  addr : U16 := 0x76

abbrev Code := Script Op

/-! ## The labels -/

def chrdevError (retval : Int) : Code Int := do
  emit .errorExit
  pure retval

def classError (retval : Int) : Code Int := do
  emit .unregisterChrdev
  chrdevError retval

def deviceError (retval : Int) : Code Int := do
  emit .classDestroy
  classError retval

def cdevError (retval : Int) : Code Int := do
  emit .deviceDestroy
  deviceError retval

def i2cClientError (retval : Int) : Code Int := do
  emit .i2cUnregisterDevice
  cdevError retval

/-! ## The functions -/

/-- The common beginning of the three init functions, after which `retval` is 0. -/
def createDevice (x : Calls) (rest : Code Int) : Code Int :=
  if x.region ≠ 0 then chrdevError x.region else do
  emit .allocChrdevRegion
  emit (.classCreate x.cls)
  if x.cls = .null then classError (-1) else do
  emit (.deviceCreate x.device)
  if x.device = .null then deviceError (-1) else do
  if x.cdev ≠ 0 then cdevError x.cdev else do
  emit .cdevAdd
  rest

/-- The common end of the three exit functions. -/
def removeDevice : Code Unit := do
  emit .deviceDestroy
  emit .classDestroy
  emit .unregisterChrdev

namespace PwmDriver

/-- `my_module_init` after `cdev_add`. -/
def pwmInitialization (x : Calls) : Code Int := do
  emit (.pwmRequest x.pwm)
  -- `!= 0` where `== NULL` was meant
  if x.pwm ≠ .null then cdevError 0 else do
  emit .pwmConfig
  emit .pwmEnable
  pure 0

def myModuleInit (x : Calls) : Code Int := createDevice x (pwmInitialization x)

def myModuleExit : Code Unit := do
  emit .pwmDisable
  emit .pwmFree
  emit .cdevDel
  removeDevice

end PwmDriver

namespace Bmp280

/-- `my_module_init` after `cdev_add`. -/
def i2cDevice (x : Calls) : Code Int := do
  emit (.i2cGetAdapter x.adapter)
  if !x.adapter then cdevError 0 else do
  emit (.i2cNewClientDevice x.client)
  if x.client = .null then cdevError 0 else do
  if x.addDriver ≠ 0 then i2cClientError x.addDriver else do
  emit .i2cAddDriver
  emit .i2cPutAdapter
  -- the ID, three calibration words, and two registers written
  emits (List.replicate 6 .smbus)
  pure 0

def myModuleInit (x : Calls) : Code Int := createDevice x (i2cDevice x)

def myModuleExit : Code Unit := do
  emit .i2cDelDriver
  emit .i2cUnregisterDevice
  emit .cdevDel
  removeDevice

end Bmp280

namespace DtI2c

/-- `I2C_SLAVE_ADDRESS` -/
def i2cSlaveAddress : U16 := 0x76

/-- `i2c_probe` after `cdev_add`. -/
def checkAddress (x : Calls) : Code Int :=
  if x.addr ≠ i2cSlaveAddress then cdevError 0 else do
  emit .setClient
  emits (List.replicate 6 .smbus)
  pure 0

def i2cProbe (x : Calls) : Code Int := createDevice x (checkAddress x)

def i2cRemove : Code Unit := removeDevice

end DtI2c

/-! ## Runs -/

inductive Module where
  | pwmDriver
  | bmp280
  | dtI2c
  deriving DecidableEq, Repr

namespace Module

/-- The init function after `cdev_add`. -/
def rest : Module → Calls → Code Int
  | pwmDriver => PwmDriver.pwmInitialization
  | bmp280 => Bmp280.i2cDevice
  | dtI2c => DtI2c.checkAddress

def init : Module → Calls → Code Int
  | pwmDriver => PwmDriver.myModuleInit
  | bmp280 => Bmp280.myModuleInit
  | dtI2c => DtI2c.i2cProbe

def exit : Module → Code Unit
  | pwmDriver => PwmDriver.myModuleExit
  | bmp280 => Bmp280.myModuleExit
  | dtI2c => DtI2c.i2cRemove

/-- What the module holds while it is loaded. -/
def keeps : Module → Resource → Bool
  | _, .cls | _, .device | _, .cdev => true
  | pwmDriver, .pwm => true
  | bmp280, .client | bmp280, .driver => true
  | _, _ => false

end Module

/-- The kernel: the module is loaded if the init function has returned 0. -/
structure State where
  world : World := {}
  loaded : Bool := false
  /-- the thread has died in a function of the module -/
  dead : Bool := false

inductive Action where
  | load (x : Calls)
  | unload

def step (m : Module) (s : State) : Action → Option State
  | .load x => if s.loaded || s.dead then none else
    match execAll World.exec { s.world with errorExit := false } (m.init x).ops with
    | none => some { s with dead := true }
    | some world => some { s with world, loaded := (m.init x).val = 0 }
  | .unload => if !s.loaded || s.dead then none else
    match execAll World.exec s.world m.exit.ops with
    | none => some { s with dead := true }
    | some world => some { s with world, loaded := false }

/-- What a load or an unload is to leave behind. -/
structure Accounted (m : Module) (a : Action) (s : State) : Prop where
  alive : s.dead = false
  /-- 0 says that there was no error exit and that everything is held -/
  reported : ∀ x, a = .load x →
    (s.loaded = true ↔ s.world.errorExit = false ∧ ∀ r, m.keeps r = true → s.world.held r = true)
  /-- an error leaves nothing behind -/
  nothing : ∀ x, a = .load x → s.loaded = false → ∀ r, s.world.held r = false
  /-- the device, the class and the cdev are released once for each time they are acquired -/
  once : ∀ r, r = .device ∨ r = .cls ∨ r = .cdev →
    ∃ held, custody s.world.log r = some held ∧ (s.loaded = false → held = false)

/-- The calls after `cdev_add` that end in a loaded module. -/
def Module.Completes (x : Calls) : Module → Prop
  | pwmDriver => False
  | bmp280 => x.adapter = true ∧ x.client = .ok ∧ x.addDriver = 0
  | dtI2c => x.addr = DtI2c.i2cSlaveAddress

/-- The device number is given, and neither the class nor the device is NULL. -/
def Calls.Created (x : Calls) : Prop := x.region = 0 ∧ x.cls ≠ .null ∧ x.device ≠ .null

/-- The steps that meet none of the defects. -/
def Module.Ok (m : Module) : Action → Prop
  | .load x => x.Created → x.cls = .ok ∧ (x.cdev = 0 → x.device = .ok ∧ m.Completes x)
  | .unload => m ≠ .dtI2c

/-- The world of a module that is loaded or not. -/
structure Holds (m : Module) (loaded : Bool) (w : World) : Prop where
  books : ∀ r, custody w.log r = some (loaded && m.keeps r)
  cls : loaded = true → w.deviceClass = .ok
  pwm : loaded = true → m = .pwmDriver → w.pwm0 = .ok
  client : loaded = true → m = .bmp280 → w.bmp280I2cClient = .ok

section

variable {m : Module} {x : Calls} {w w' : World} {s s' : State} {a : Action} {retval : Int}

/-! ## Frame -/

/-- The resource that a call acquires or releases. -/
def Op.concerns : Op → Option Resource
  | .classCreate _ | .classDestroy => some .cls
  | .deviceCreate _ | .deviceDestroy => some .device
  | .cdevAdd | .cdevDel => some .cdev
  | .pwmRequest _ | .pwmFree => some .pwm
  | .i2cGetAdapter _ | .i2cPutAdapter => some .adapter
  | .i2cNewClientDevice _ | .i2cUnregisterDevice => some .client
  | .i2cAddDriver | .i2cDelDriver => some .driver
  | _ => none

/-- What a call can do to the ledger. -/
theorem exec_log {op : Op} (he : w.exec op = some w') : w'.log = w.log ∨
    ∃ r, op.concerns = some r ∧ (w'.log = w.log ++ [.acquire r] ∨ w'.log = w.log ++ [.release r]) := by
  cases op with
  | classCreate q | pwmRequest q | i2cNewClientDevice q =>
    cases q with
    | null | err => cases he; exact .inl rfl
    | ok => cases he; exact .inr ⟨_, rfl, .inl rfl⟩
  | cdevAdd | i2cAddDriver => cases he; exact .inr ⟨_, rfl, .inl rfl⟩
  | cdevDel | i2cDelDriver | i2cPutAdapter => cases he; exact .inr ⟨_, rfl, .inr rfl⟩
  | deviceCreate | i2cGetAdapter =>
    cases he
    split
    · exact .inr ⟨_, rfl, .inl rfl⟩
    · exact .inl rfl
  | classDestroy | i2cUnregisterDevice =>
    cases he
    split
    · exact .inr ⟨_, rfl, .inr rfl⟩
    · exact .inl rfl
  | deviceDestroy =>
    simp only [World.exec] at he
    split at he <;> cases he
    split
    · exact .inl rfl
    · exact .inr ⟨_, rfl, .inr rfl⟩
  | pwmFree =>
    simp only [World.exec] at he
    split at he <;> cases he
    split
    · exact .inr ⟨_, rfl, .inr rfl⟩
    · exact .inl rfl
  | pwmConfig | pwmEnable | pwmDisable | smbus =>
    simp only [World.exec] at he
    split at he <;> cases he
    exact .inl rfl
  | allocChrdevRegion | unregisterChrdev | setClient | errorExit => cases he; exact .inl rfl

/-- A call leaves the other resources alone. -/
theorem exec_frame {op : Op} {r : Resource} (he : w.exec op = some w') (ne : op.concerns ≠ some r) :
    custody w'.log r = custody w.log r := by
  obtain same | ⟨q, concerns, entry⟩ := exec_log he
  · rw [same]
  · have other : q ≠ r := fun e => ne (e ▸ concerns)
    rcases entry with entry | entry <;> rw [entry, custody_concat, Entry.apply, if_neg other]

theorem execAll_frame {ops : List Op} {r : Resource} (h : execAll World.exec w ops = some w')
    (ne : ∀ op ∈ ops, op.concerns ≠ some r) : custody w'.log r = custody w.log r := by
  have along : Along World.exec (fun _ _ => True) (fun v => custody v.log r = custody w.log r) w ops :=
    along_of_forall (fun _ _ _ _ => trivial) (fun v v' same op mem he => (exec_frame he (ne op mem)).trans same) rfl
  exact along.final h

/-! ## The common beginning -/

theorem cdevError_ops (retval : Int) : (cdevError retval).ops =
    [.deviceDestroy, .classDestroy, .unregisterChrdev, .errorExit] := rfl

theorem createDevice_completes (rest : Code Int) (created : x.Created) (cdev : x.cdev = 0) :
    (createDevice x rest).ops =
      ([.allocChrdevRegion, .classCreate x.cls, .deviceCreate x.device, .cdevAdd] : List Op) ++ rest.ops ∧
      (createDevice x rest).val = rest.val := by
  obtain ⟨region, cls, device⟩ := created
  simp [createDevice, region, cls, device, cdev]

theorem createDevice_cdev (rest : Code Int) (created : x.Created) (cdev : x.cdev ≠ 0) : (createDevice x rest).ops =
    ([.allocChrdevRegion, .classCreate x.cls, .deviceCreate x.device] : List Op) ++ (cdevError x.cdev).ops ∧
      (createDevice x rest).val = x.cdev := by
  obtain ⟨region, cls, device⟩ := created
  simp [createDevice, region, cls, device, cdev, cdevError, deviceError, classError, chrdevError]

/-- What the common beginning has acquired. -/
def Calls.made (x : Calls) : Resource → Bool
  | .cls => x.cls = .ok
  | .device => x.cls = .ok ∧ x.device = .ok
  | .cdev => true
  | _ => false

theorem exec_made (clean : ∀ r, custody w.log r = some false) : ∃ w',
    execAll World.exec w [.allocChrdevRegion, .classCreate x.cls, .deviceCreate x.device, .cdevAdd] = some w' ∧
      w'.deviceClass = x.cls ∧ w'.errorExit = w.errorExit ∧ ∀ r, custody w'.log r = some (x.made r) := by
  cases cls : x.cls <;> cases device : x.device <;> simp [execAll, World.exec] <;>
    intro r <;> cases r <;> simp [clean, Calls.made, cls, device]

/-- An error exit from behind `cdev_add` leaves the cdev. -/
theorem cdevError_leaves (h : execAll World.exec w (cdevError retval).ops = some w') :
    w.deviceClass ≠ .err ∧ w'.errorExit = true ∧ custody w'.log .cdev = custody w.log .cdev := by
  rw [cdevError_ops] at h
  refine ⟨fun cls => ?_, ?_, execAll_frame h (by decide)⟩
  · simp [execAll, World.exec, cls] at h
  · rw [show [Op.deviceDestroy, .classDestroy, .unregisterChrdev, .errorExit] =
      [.deviceDestroy, .classDestroy, .unregisterChrdev] ++ [.errorExit] from rfl, execAll_append] at h
    obtain ⟨w₁, -, last⟩ := Option.bind_eq_some_iff.1 h
    simp only [execAll, World.exec, Option.bind_some, Option.some.injEq] at last
    rw [← last]

/-! ## What the conditions are enough for -/

/-- An init function that fails before `cdev_add` returns leaves nothing. -/
theorem createDevice_fails (rest : Code Int) (clean : ∀ r, custody w.log r = some false)
    (ok : x.Created → x.cls = .ok ∧ x.cdev ≠ 0) : (createDevice x rest).val ≠ 0 ∧
      ∃ w', execAll World.exec w (createDevice x rest).ops = some w' ∧ w'.errorExit = true ∧
        ∀ r, custody w'.log r = some false := by
  by_cases created : x.Created
  · obtain ⟨cls, cdev⟩ := ok created
    obtain ⟨ops, val⟩ := createDevice_cdev rest created cdev
    rw [ops, val, cdevError_ops, cls]
    refine ⟨cdev, ?_⟩
    cases x.device <;> simp [execAll, World.exec, World.held, clean] <;> intro r <;> cases r <;> simp
  · simp only [Calls.Created, not_and_or, not_not] at created
    unfold createDevice
    by_cases region : x.region = 0
    · by_cases cls : x.cls = .null
      · simp [region, cls, classError, chrdevError, execAll, World.exec, clean]
      · have device : x.device = .null := by simpa [region, cls] using created
        cases h : x.cls with
        | null => exact absurd h cls
        | err => simp [region, device, deviceError, classError, chrdevError, execAll, World.exec, clean]
        | ok =>
          simp [region, device, deviceError, classError, chrdevError, execAll, World.exec, clean]
          intro r
          cases r <;> simp
    · simp [region, chrdevError, execAll, World.exec, clean]

theorem init_eq (m : Module) (x : Calls) : m.init x = createDevice x (m.rest x) := by
  cases m <;> rfl

/-- The calls after `cdev_add`, when all of them succeed. -/
theorem rest_ok (books : ∀ r, custody w.log r = some (x.made r)) (cls : w.deviceClass = .ok) (made : x.cls = .ok)
    (device : x.device = .ok) (completes : m.Completes x) :
    (m.rest x).val = 0 ∧ ∃ w', execAll World.exec w (m.rest x).ops = some w' ∧ w'.errorExit = w.errorExit ∧
      Holds m true w' := by
  cases m with
  | pwmDriver => exact completes.elim
  | bmp280 =>
    obtain ⟨adapter, client, addDriver⟩ := completes
    refine ⟨by simp [Module.rest, Bmp280.i2cDevice, adapter, client, addDriver], ?_⟩
    simp [Module.rest, Bmp280.i2cDevice, adapter, client, addDriver, execAll, World.exec, List.replicate]
    refine ⟨fun r => ?_, fun _ => cls, (fun _ other => by cases other), fun _ _ => rfl⟩
    cases r <;> simp [books, Calls.made, Module.keeps, made, device]
  | dtI2c =>
    have addr : x.addr = DtI2c.i2cSlaveAddress := completes
    refine ⟨by simp [Module.rest, DtI2c.checkAddress, addr], ?_⟩
    simp [Module.rest, DtI2c.checkAddress, addr, execAll, World.exec, List.replicate]
    refine ⟨fun r => ?_, fun _ => cls, (fun _ other => by cases other), (fun _ other => by cases other)⟩
    cases r <;> simp [books, Calls.made, Module.keeps, made, device]

/-- A load that meets the condition, when the module is not loaded. -/
theorem init_ok (h : Holds m false w) (errorExit : w.errorExit = false) (ok : m.Ok (.load x)) :
    ∃ w', execAll World.exec w (m.init x).ops = some w' ∧ Holds m ((m.init x).val = 0) w' ∧
      w'.errorExit = !((m.init x).val = 0 : Bool) := by
  have clean : ∀ r, custody w.log r = some false := fun r => by simpa using h.books r
  rw [init_eq]
  by_cases completes : x.Created ∧ x.cdev = 0
  · obtain ⟨created, cdev⟩ := completes
    obtain ⟨cls, rest⟩ := ok created
    obtain ⟨device, completes⟩ := rest cdev
    obtain ⟨w₁, made, cls₁, same, books⟩ := exec_made (x := x) clean
    obtain ⟨val, w', run, same', holds⟩ := rest_ok books (cls₁.trans cls) cls device completes
    obtain ⟨ops, val'⟩ := createDevice_completes (m.rest x) created cdev
    rw [ops, val', val, execAll_append, made]
    exact ⟨w', run, holds, by simp [same', same, errorExit]⟩
  · have fails : x.Created → x.cls = .ok ∧ x.cdev ≠ 0 :=
      fun created => ⟨(ok created).1, fun cdev => completes ⟨created, cdev⟩⟩
    obtain ⟨val, w', run, exit, clean'⟩ := createDevice_fails (m.rest x) clean fails
    refine ⟨w', run, ?_, by simp [exit, val]⟩
    rw [decide_eq_false val]
    exact ⟨by simpa using clean', nofun, nofun, nofun⟩

/-- An unload that meets it, when the module is loaded. -/
theorem exit_ok (h : Holds m true w) (ok : m ≠ .dtI2c) :
    ∃ w', execAll World.exec w m.exit.ops = some w' ∧ Holds m false w' := by
  have books := h.books
  have cls := h.cls rfl
  cases m with
  | pwmDriver =>
    have pwm := h.pwm rfl rfl
    simp [Module.exit, PwmDriver.myModuleExit, removeDevice, execAll, World.exec, World.held, cls, pwm, books, Module.keeps]
    refine ⟨fun r => ?_, (fun loaded => by cases loaded), (fun loaded => by cases loaded), (fun loaded => by cases loaded)⟩
    cases r <;> simp [books, Module.keeps]
  | bmp280 =>
    have client := h.client rfl rfl
    simp [Module.exit, Bmp280.myModuleExit, removeDevice, execAll, World.exec, World.held, cls, client, books, Module.keeps]
    refine ⟨fun r => ?_, (fun loaded => by cases loaded), (fun loaded => by cases loaded), (fun loaded => by cases loaded)⟩
    cases r <;> simp [books, Module.keeps]
  | dtI2c => exact absurd rfl ok

/-! ## What makes them necessary -/

/-- The value tells whether everything is held, or nothing. -/
structure Reports (m : Module) (val : Int) (w : World) : Prop where
  zero : val = 0 ↔ w.errorExit = false ∧ ∀ r, m.keeps r = true → w.held r = true
  nothing : val ≠ 0 → ∀ r, w.held r = false

/-- Code that takes an error exit from behind `cdev_add` and returns 0 does not. -/
theorem not_reports_of_exit {code : Code Int} (first : List Op) (ops : code.ops = first ++ (cdevError 0).ops)
    (val : code.val = 0) (run : execAll World.exec w code.ops = some w') : ¬ Reports m code.val w' := by
  intro reports
  rw [ops, execAll_append] at run
  obtain ⟨w₁, -, run⟩ := Option.bind_eq_some_iff.1 run
  have noExit := (reports.zero.1 val).1
  rw [(cdevError_leaves run).2.1] at noExit
  cases noExit

/-- 004: whatever `pwm_request` returns. -/
theorem pwmInitialization_reports (books : ∀ r, custody w.log r = some (x.made r))
    (run : execAll World.exec w (PwmDriver.pwmInitialization x).ops = some w') :
    ¬ Reports .pwmDriver (PwmDriver.pwmInitialization x).val w' := by
  by_cases pwm : x.pwm = .null
  · intro reports
    simp [PwmDriver.pwmInitialization, pwm, execAll, World.exec] at run
    have held := (reports.zero.1 (by simp [PwmDriver.pwmInitialization, pwm])).2 .pwm rfl
    rw [← run] at held
    simp [World.held, books, Calls.made] at held
  · have code : PwmDriver.pwmInitialization x = (do emit (.pwmRequest x.pwm); cdevError 0) := by
      simp [PwmDriver.pwmInitialization, pwm]
    rw [code] at run ⊢
    exact not_reports_of_exit [.pwmRequest x.pwm] rfl rfl run

/-- 005: an error exit returns 0 or leaves the cdev, and an error pointer is not survived. -/
theorem i2cDevice_reports (books : ∀ r, custody w.log r = some (x.made r))
    (run : execAll World.exec w (Bmp280.i2cDevice x).ops = some w') (reports : Reports .bmp280 (Bmp280.i2cDevice x).val w') :
    Module.bmp280.Completes x := by
  by_cases adapter : x.adapter = true
  · by_cases client : x.client = .null
    · have code : Bmp280.i2cDevice x =
          (do emit (.i2cGetAdapter true); emit (.i2cNewClientDevice .null); cdevError 0) := by
        simp [Bmp280.i2cDevice, adapter, client]
      rw [code] at run reports
      exact absurd reports (not_reports_of_exit [.i2cGetAdapter true, .i2cNewClientDevice .null] rfl rfl run)
    · by_cases addDriver : x.addDriver = 0
      · refine ⟨adapter, ?_, addDriver⟩
        cases present : x.client with
        | null => exact absurd present client
        | ok => rfl
        | err => simp [Bmp280.i2cDevice, adapter, present, addDriver, execAll, World.exec, List.replicate] at run
      · have code : Bmp280.i2cDevice x =
            (do emit (.i2cGetAdapter true); emit (.i2cNewClientDevice x.client); i2cClientError x.addDriver) := by
          simp [Bmp280.i2cDevice, adapter, client, addDriver]
        rw [code] at run reports
        have cdev := reports.nothing addDriver .cdev
        rw [World.held, execAll_frame run, books] at cdev
        · cases cdev
        · simp [i2cClientError, cdevError_ops, Op.concerns]
  · have code : Bmp280.i2cDevice x = (do emit (.i2cGetAdapter false); cdevError 0) := by
      simp [Bmp280.i2cDevice, adapter]
    rw [code] at run reports
    exact absurd reports (not_reports_of_exit [.i2cGetAdapter false] rfl rfl run)

theorem completes_of_reports (books : ∀ r, custody w.log r = some (x.made r))
    (run : execAll World.exec w (m.rest x).ops = some w') (reports : Reports m (m.rest x).val w') :
    m.Completes x := by
  cases m with
  | pwmDriver => exact absurd reports (pwmInitialization_reports books run)
  | bmp280 => exact i2cDevice_reports books run reports
  | dtI2c =>
    by_contra addr
    have mismatch : x.addr ≠ DtI2c.i2cSlaveAddress := addr
    have rest : Module.dtI2c.rest x = cdevError 0 := if_pos mismatch
    rw [rest] at run reports
    exact not_reports_of_exit [] rfl rfl run reports

/-- When all of them succeed, the device is left alone. -/
theorem rest_frame (completes : m.Completes x) :
    (m.rest x).val = 0 ∧ ∀ op ∈ (m.rest x).ops, op.concerns ≠ some .device := by
  cases m with
  | pwmDriver => exact completes.elim
  | bmp280 =>
    obtain ⟨adapter, client, addDriver⟩ := completes
    simp [Module.rest, Bmp280.i2cDevice, adapter, client, addDriver, Op.concerns]
  | dtI2c =>
    have addr : x.addr = DtI2c.i2cSlaveAddress := completes
    simp [Module.rest, DtI2c.checkAddress, addr, Op.concerns]

theorem ok_of_reports (h : Holds m false w) (run : execAll World.exec w (m.init x).ops = some w')
    (reports : Reports m (m.init x).val w') : m.Ok (.load x) := by
  have clean : ∀ r, custody w.log r = some false := fun r => by simpa using h.books r
  intro created
  rw [init_eq] at run reports
  by_cases cdev : x.cdev = 0
  · obtain ⟨ops, val⟩ := createDevice_completes (m.rest x) created cdev
    obtain ⟨w₁, made, -, -, books⟩ := exec_made (x := x) clean
    rw [ops, execAll_append, made] at run
    rw [val] at reports
    have completes := completes_of_reports books run reports
    obtain ⟨zero, frame⟩ := rest_frame completes
    have device := (reports.zero.1 zero).2 .device (by cases m <;> rfl)
    rw [World.held, execAll_frame run frame, books] at device
    have both : x.cls = .ok ∧ x.device = .ok := by simpa [Calls.made] using device
    exact ⟨both.1, fun _ => ⟨both.2, completes⟩⟩
  · obtain ⟨ops, -⟩ := createDevice_cdev (m.rest x) created cdev
    rw [ops, execAll_append] at run
    obtain ⟨w₁, first, run⟩ := Option.bind_eq_some_iff.1 run
    have cls := (cdevError_leaves run).1
    refine ⟨?_, fun zero => absurd zero cdev⟩
    cases present : x.cls with
    | null => exact absurd present created.2.1
    | ok => rfl
    | err =>
      simp [execAll, World.exec, present] at first
      rw [← first] at cls
      exact absurd rfl cls

/-- `i2c_remove` leaves the cdev. -/
theorem i2cRemove_leaves (h : Holds .dtI2c true w) (run : execAll World.exec w (Module.exit .dtI2c).ops = some w') :
    custody w'.log .cdev = some true := by
  rw [execAll_frame run (by decide), h.books]
  rfl

/-! ## Runs -/

/-- The invariant. -/
def Inv (m : Module) (s : State) : Prop := s.dead = false ∧ Holds m s.loaded s.world

theorem step_load (hs : step m s (.load x) = some s') : s.loaded = false ∧
    ((execAll World.exec { s.world with errorExit := false } (m.init x).ops = none ∧ s' = { s with dead := true }) ∨
      ∃ w', execAll World.exec { s.world with errorExit := false } (m.init x).ops = some w' ∧
        s' = { s with world := w', loaded := (m.init x).val = 0 }) := by
  simp only [step] at hs
  split at hs
  · cases hs
  · next free =>
    refine ⟨by simp at free; exact free.1, ?_⟩
    split at hs <;> cases hs
    · next run => exact .inl ⟨run, rfl⟩
    · next run => exact .inr ⟨_, run, rfl⟩

theorem step_unload (hs : step m s .unload = some s') : s.loaded = true ∧
    ((execAll World.exec s.world m.exit.ops = none ∧ s' = { s with dead := true }) ∨
      ∃ w', execAll World.exec s.world m.exit.ops = some w' ∧ s' = { s with world := w', loaded := false }) := by
  simp only [step] at hs
  split at hs
  · cases hs
  · next free =>
    refine ⟨by simp at free; exact free.1, ?_⟩
    split at hs <;> cases hs
    · next run => exact .inl ⟨run, rfl⟩
    · next run => exact .inr ⟨_, run, rfl⟩

/-- Nothing is held before a load. -/
theorem Inv.unloaded (inv : Inv m s) (free : s.loaded = false) : Holds m false { s.world with errorExit := false } := by
  have holds := inv.2
  rw [free] at holds
  exact ⟨holds.books, nofun, nofun, nofun⟩

/-- What the invariant says once a step is over. -/
theorem Inv.accounted (inv : Inv m s) (exits : ∀ x, a = .load x → s.world.errorExit = !s.loaded) : Accounted m a s := by
  obtain ⟨alive, books, -, -, -⟩ := inv
  refine ⟨alive, fun x load => ?_, fun x _ free r => ?_, fun r _ => ⟨_, books r, fun free => by simp [free]⟩⟩
  · constructor
    · intro loaded
      refine ⟨by rw [exits x load, loaded]; rfl, fun r keeps => ?_⟩
      simp [World.held, books, loaded, keeps]
    · rintro ⟨noExit, -⟩
      rw [exits x load] at noExit
      simpa using noExit
  · simp [World.held, books, free]

/-- **The step lemma**: a step that meets the condition. -/
theorem step_ok (inv : Inv m s) (hs : step m s a = some s') (ok : m.Ok a) : Inv m s' ∧ Accounted m a s' := by
  obtain ⟨alive, holds⟩ := inv
  cases a with
  | load x =>
    obtain ⟨free, result⟩ := step_load hs
    obtain ⟨w', run, holds', exit⟩ := init_ok (Inv.unloaded ⟨alive, holds⟩ free) rfl ok
    obtain ⟨none, -⟩ | ⟨w'', run', rfl⟩ := result
    · rw [run] at none
      cases none
    · rw [run, Option.some.injEq] at run'
      subst run'
      refine ⟨⟨alive, holds'⟩, Inv.accounted ⟨alive, holds'⟩ ?_⟩
      intro _ _
      exact exit
  | unload =>
    obtain ⟨loaded, result⟩ := step_unload hs
    rw [loaded] at holds
    obtain ⟨w', run, holds'⟩ := exit_ok holds ok
    obtain ⟨none, -⟩ | ⟨w'', run', rfl⟩ := result
    · rw [run] at none
      cases none
    · rw [run, Option.some.injEq] at run'
      subst run'
      refine ⟨⟨alive, holds'⟩, Inv.accounted ⟨alive, holds'⟩ ?_⟩
      intro x load
      cases load

/-- A step that does not is not accounted for. -/
theorem ok_of_accounted (inv : Inv m s) (hs : step m s a = some s') (accounted : Accounted m a s') : m.Ok a := by
  have alive := accounted.alive
  cases a with
  | load x =>
    obtain ⟨free, ⟨-, rfl⟩ | ⟨w', run, rfl⟩⟩ := step_load hs
    · cases alive
    · refine ok_of_reports (inv.unloaded free) run ⟨?_, fun error => ?_⟩
      · simpa using accounted.reported x rfl
      · exact accounted.nothing x rfl (decide_eq_false error)
  | unload =>
    obtain ⟨loaded, ⟨-, rfl⟩ | ⟨w', run, rfl⟩⟩ := step_unload hs
    · cases alive
    · rintro rfl
      have holds := inv.2
      rw [loaded] at holds
      obtain ⟨held, cdev, released⟩ := accounted.once .cdev (.inr (.inr rfl))
      rw [i2cRemove_leaves holds run, released rfl] at cdev
      cases cdev

/-- Unless the module is loaded, the device, the class and the cdev have been released as
often as acquired. -/
theorem Accounted.count (accounted : Accounted m a s) (free : s.loaded = false) {r : Resource}
    (tracked : r = .device ∨ r = .cls ∨ r = .cdev) :
    s.world.log.count (.acquire r) = s.world.log.count (.release r) := by
  obtain ⟨held, books, released⟩ := accounted.once r tracked
  rw [custody_count books, released free]
  rfl

theorem inv_start (m : Module) : Inv m {} := ⟨rfl, fun r => custody_nil r, nofun, nofun, nofun⟩

/-- **Every run** of loads and unloads is accounted for exactly if each of its steps meets
the condition. -/
theorem released_once_iff (m : Module) (as : List Action) :
    Throughout (step m) (fun _ a s' => Accounted m a s') {} as ↔ Throughout (step m) (fun _ a _ => m.Ok a) {} as := by
  refine throughout_iff (fun s a s' inv hs => ?_) (fun s a s' inv hs accounted => ?_) (inv_start m) as
  · exact ⟨ok_of_accounted inv hs, fun ok => (step_ok inv hs ok).2⟩
  · exact (step_ok inv hs (ok_of_accounted inv hs accounted)).1

end

/-- Every call succeeds. -/
def goodCalls : Calls := { region := 0, cls := .ok, device := .ok, cdev := 0 }

/-- `kernel/004_pwm_driver` takes the PWM it is given for an error. -/
theorem goodCalls_not_accounted : ¬ ∀ (m : Module) (as : List Action),
    Throughout (step m) (fun _ a s' => Accounted m a s') {} as := by
  intro all
  have first := all .pwmDriver [.load goodCalls]
  cases hs : step .pwmDriver {} (.load goodCalls) with
  | none => exact absurd hs (by decide)
  | some s' =>
    have ok := ok_of_accounted (inv_start .pwmDriver) hs (first s' hs).1
    exact ((ok ⟨rfl, by decide, by decide⟩).2 rfl).2

end Beaglebone.Kernel.Lifecycle
