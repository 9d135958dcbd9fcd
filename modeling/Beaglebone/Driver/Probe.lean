import Beaglebone.Driver.Resources

/-!
# `driver_probe` and `driver_remove`

The functions of `cotti_i2c.c`, `bmp280.c`, `char_device.c` and `driver.c` that
acquire and release resources, as scripts over the results of the external calls
they make. A `goto` label is a definition that falls through to the next label.
-/

namespace Beaglebone.Driver

open Machine I2c Script

/-- The results of the external calls of `cotti_i2c_init`, in the order of the
code. -/
structure I2cInit where
  /-- `i2c_dev->parent != NULL` -/
  parent : Bool
  /-- every `device_property_present` -/
  properties : Bool
  /-- the first `device_property_read_…` that is not 0, or 0 -/
  readProperties : Int
  clkNode : Bool
  pinmuxNode : Bool
  fclk : ErrPtr
  clkPtr : Bool
  controlModulePtr : Bool
  i2cPtr : ErrPtr
  /-- the values of SYSS that `prv_reset_i2c` polls -/
  syss : Nat → U8
  platformIrq : Int
  requestIrq : Int

/-- `clk_get` is called. -/
def I2cInit.AsksClk (x : I2cInit) : Prop :=
  x.parent = true ∧ x.properties = true ∧ x.readProperties = 0 ∧ x.clkNode = true ∧ x.pinmuxNode = true

/-- `devm_platform_ioremap_resource` is called. -/
def I2cInit.Reaches (x : I2cInit) : Prop :=
  x.parent = true ∧ x.properties = true ∧ x.readProperties = 0 ∧ x.clkNode = true ∧
    x.pinmuxNode = true ∧ x.fclk = .ok ∧ x.clkPtr = true ∧ x.controlModulePtr = true

/-- It is called and maps the registers. -/
def I2cInit.Maps (x : I2cInit) : Prop := x.Reaches ∧ x.i2cPtr = .ok

instance (x : I2cInit) : Decidable x.Reaches :=
  inferInstanceAs (Decidable (_ ∧ _ ∧ _ ∧ _ ∧ _ ∧ _ ∧ _ ∧ _))

instance (x : I2cInit) : Decidable x.Maps := inferInstanceAs (Decidable (_ ∧ _))

/-- The results of the external calls of `bmp280_init`. -/
structure Bmp280Init where
  child : Bool
  reg : Int
  slaveAddress : U32
  /-- what `bmp280_is_connected` returns -/
  connected : Bool

/-- The results of the external calls of `char_device_create`. -/
structure CharDeviceCreate where
  name : Bool
  region : Int
  major : BitVec 12
  cls : ErrPtr
  device : ErrPtr
  cdev : Int

structure Probe where
  i2c : I2cInit
  bmp280 : Bmp280Init
  chr : CharDeviceCreate

/-- Every external call succeeds. -/
def goodProbe : Probe where
  i2c := { parent := true, properties := true, readProperties := 0, clkNode := true, pinmuxNode := true,
           fclk := .ok, clkPtr := true, controlModulePtr := true, i2cPtr := .ok, syss := fun _ => 1,
           platformIrq := 30, requestIrq := 0 }
  bmp280 := { child := true, reg := 0, slaveAddress := 0x76, connected := true }
  chr := { name := true, region := 0, major := 240, cls := .ok, device := .ok, cdev := 0 }

abbrev Code := Script Op

def access (p : IoPtr) (n : Nat) : Code Unit := emits (List.replicate n (.access p))

/-! ## `cotti_i2c.c` -/

/-- `prv_wakeup`: the write, and one poll at least. -/
def prvWakeup : Code Unit := access .clk 2

/-- `prv_reset_i2c`: a read and three writes, the polls, and the write to CON on
success. -/
def prvReset (syss : Nat → U8) : Code Int := do
  access .i2c 4
  access .i2c ((prvResetI2c syss).2 + 1)
  if (prvResetI2c syss).1 ≠ 0 then pure (-1) else do
  access .i2c 1
  pure 0

def pdevError (retval : Int) : Code Int := do
  emit (.setNull .i2c)
  emit (.setNull .clk)
  emit (.setNull .controlModule)
  pure retval

def clkNodeError (retval : Int) : Code Int := do
  emit (.release .clkNode)
  pdevError retval

def pinmuxNodeError (retval : Int) : Code Int := do
  emit (.release .pinmuxNode)
  clkNodeError retval

def clkPtrError (retval : Int) : Code Int := do
  emit (.iounmap .clk)
  pinmuxNodeError retval

def controlModulePtrError (retval : Int) : Code Int := do
  emit (.iounmap .controlModule)
  clkPtrError retval

def i2cPtrError (retval : Int) : Code Int := do
  emit (.iounmap .i2c)
  controlModulePtrError retval

/-- `clk_get_rate` and `clk_put` of what `clk_get` returned, if it is not NULL. -/
def clkRate : ErrPtr → Code Unit
  | .ok => do
    emit (.acquire .fclk)
    emit (.clkGetRate .ok)
    emit (.release .fclk)
  | r => emit (.clkGetRate r)

/-- The second half of `cottiI2cInit`, from the pins on. -/
def cottiI2cConfigure (x : I2cInit) (retval : Int) : Code Int := do
  access .controlModule 2
  prvWakeup
  let reset ← prvReset x.syss
  -- `retval` still holds the result of the last `device_property_read_…`
  if reset ≠ 0 then i2cPtrError retval else do
  -- SYSC, PSC, SCLL, SCLH, CON and IRQENABLE_SET
  access .i2c 6
  emit (.setIrq x.platformIrq)
  if x.platformIrq < 0 then i2cPtrError x.platformIrq else do
  if x.requestIrq < 0 then i2cPtrError x.requestIrq else do
  emit .requestIrq
  emit (.release .pinmuxNode)
  emit (.release .clkNode)
  pure 0

def cottiI2cInit (x : I2cInit) : Code Int :=
  if !x.parent then pdevError (-1) else
  if !x.properties then pdevError (-1) else
  let retval := x.readProperties
  if retval ≠ 0 then pdevError retval else
  if !x.clkNode then pdevError (-1) else do
  emit (.acquire .clkNode)
  if !x.pinmuxNode then clkNodeError (-1) else do
  emit (.acquire .pinmuxNode)
  if x.fclk = .null then pinmuxNodeError (-1) else do
  clkRate x.fclk
  emit (.iomap .clk x.clkPtr)
  if !x.clkPtr then pinmuxNodeError (-1) else do
  emit (.iomap .controlModule x.controlModulePtr)
  if !x.controlModulePtr then clkPtrError (-1) else do
  emit (.devmIomap x.i2cPtr)
  if x.i2cPtr = .null then controlModulePtrError (-1) else
  cottiI2cConfigure x retval

def cottiI2cDeinit : Code Unit := do
  emit (.ready false)
  emit (.iounmapNonNull .clk)
  emit (.iounmapNonNull .controlModule)
  emit (.iounmapNonNull .i2c)
  emit .freeIrq

/-! ## `bmp280.c` -/

def bmp280SetMode (mode : U8) : Code Unit := emit (.i2cWrite (mode ||| 1#8 <<< 5) 0xF4)

def bmp280SetFrequency (freq : U8) : Code Unit := emit (.i2cWrite (freq <<< 5) 0xF5)

/-- The read of the ID register. -/
def bmp280IsConnected (connected : Bool) : Code Bool := do
  emit (.i2cRead 0xD0)
  pure connected

def tempSensorNodeError (retval : Int) : Code Int := do
  emit (.release .tempSensorNode)
  pure retval

def bmp280Init (x : Bmp280Init) : Code Int :=
  if !x.child then pure (-1) else do
  emit (.acquire .tempSensorNode)
  if x.reg ≠ 0 then tempSensorNodeError x.reg else do
  emit (.setSlaveAddress x.slaveAddress)
  let connected ← bmp280IsConnected x.connected
  if !connected then tempSensorNodeError (-1) else do
  emits ([0x89, 0x88, 0x8B, 0x8A, 0x8D, 0x8C].map .i2cRead)
  bmp280SetFrequency 5
  bmp280SetMode 3
  pure 0

def bmp280Deinit : Code Unit := bmp280SetMode 0

/-! ## `char_device.c` -/

def kmallocError (retval : Int) : Code Int := do
  emit .kfree
  pure retval

def chrdevError (retval : Int) : Code Int := do
  emit .unregisterChrdev
  kmallocError retval

def classError (retval : Int) : Code Int := do
  emit .classDestroy
  chrdevError retval

def deviceError (retval : Int) : Code Int := do
  emit .deviceDestroy
  classError retval

def charDeviceCreate (x : CharDeviceCreate) : Code Int := do
  emit (.kmalloc x.name)
  if !x.name then pure (-1) else do
  if x.region ≠ 0 then kmallocError x.region else do
  emit (.allocChrdevRegion x.major)
  emit (.classCreate x.cls)
  if x.cls = .null then chrdevError (-1) else do
  emit (.deviceCreate x.device)
  if x.device = .null then classError (-1) else do
  if x.cdev ≠ 0 then deviceError x.cdev else do
  emit .cdevAdd
  pure 0

def charDeviceRemove : Code Unit := do
  emit .deviceDestroy
  emit .classDestroy
  emit .unregisterChrdev
  emit .kfree

/-! ## `driver.c` -/

def i2cError (retval : Int) : Code Int := do
  cottiI2cDeinit
  pure retval

def bmp280Error (retval : Int) : Code Int := do
  bmp280Deinit
  i2cError retval

def driverProbe (x : Probe) : Code Int := do
  let retval ← cottiI2cInit x.i2c
  if retval ≠ 0 then pure retval else do
  emit (.ready true)
  let retval ← bmp280Init x.bmp280
  if retval ≠ 0 then i2cError retval else do
  let retval ← charDeviceCreate x.chr
  if retval ≠ 0 then bmp280Error retval else do
  pure 0

def driverRemove : Code Unit := do
  charDeviceRemove
  bmp280Deinit
  cottiI2cDeinit

/-! ## The driver core -/

/-- A probe, after which the core binds the device or releases what devm manages. -/
def probe (x : Probe) : Code Unit := do
  let retval ← driverProbe x
  if retval = 0 then emit (.bound true) else emit .devmRelease

/-- A remove, after which the core releases what devm manages. -/
def remove : Code Unit := do
  driverRemove
  emit .devmRelease
  emit (.bound false)

/-! ## The script of `cotti_i2c_init` -/

theorem pdevError_ops (retval : Int) :
    (pdevError retval).ops = [.setNull .i2c, .setNull .clk, .setNull .controlModule] := rfl

/-- The whole error ladder. -/
theorem i2cPtrError_ops (retval : Int) : (i2cPtrError retval).ops =
    [.iounmap .i2c, .iounmap .controlModule, .iounmap .clk, .release .pinmuxNode, .release .clkNode,
     .setNull .i2c, .setNull .clk, .setNull .controlModule] := rfl

theorem ErrPtr.ok_of {r : ErrPtr} (present : r ≠ .null) (live : r ≠ .err) : r = .ok := by
  cases r with
  | ok => rfl
  | null => exact absurd rfl present
  | err => exact absurd rfl live

/-- What the first five branches have excluded. -/
theorem asksClk_of {x : I2cInit} (parent : ¬ (!x.parent) = true) (properties : ¬ (!x.properties) = true)
    (read : ¬ x.readProperties ≠ 0) (clkNode : ¬ (!x.clkNode) = true) (pinmuxNode : ¬ (!x.pinmuxNode) = true) :
    x.AsksClk :=
  ⟨by simpa using parent, by simpa using properties, not_not.1 read, by simpa using clkNode, by simpa using pinmuxNode⟩

theorem I2cInit.AsksClk.reaches {x : I2cInit} (asks : x.AsksClk) (fclk : x.fclk = .ok) (clkPtr : x.clkPtr = true)
    (controlModulePtr : x.controlModulePtr = true) : x.Reaches := by
  obtain ⟨parent, properties, read, clkNode, pinmuxNode⟩ := asks
  exact ⟨parent, properties, read, clkNode, pinmuxNode, fclk, clkPtr, controlModulePtr⟩

/-- The steps up to the mapping of `i2c_ptr`, with the result `r`. -/
def mapOps (r : ErrPtr) : List Op :=
  [.acquire .clkNode, .acquire .pinmuxNode, .acquire .fclk, .clkGetRate .ok, .release .fclk,
   .iomap .clk true, .iomap .controlModule true, .devmIomap r]

theorem init_reaches {x : I2cInit} (hx : x.Reaches) (i2c : x.i2cPtr ≠ .null) :
    (cottiI2cInit x).ops = mapOps x.i2cPtr ++ (cottiI2cConfigure x 0).ops ∧
      (cottiI2cInit x).val = (cottiI2cConfigure x 0).val := by
  obtain ⟨parent, properties, read, clkNode, pinmuxNode, fclk, clkPtr, controlModulePtr⟩ := hx
  unfold cottiI2cInit mapOps
  simp [parent, properties, read, clkNode, pinmuxNode, fclk, clkPtr, controlModulePtr, i2c, clkRate]

/-! ## Functions that leave the mappings alone -/

/-- The operation has nothing to do with the pointers, the mappings and the flags. -/
def Op.plain : Op → Bool
  | .iomap _ _ | .devmIomap _ | .iounmap _ | .iounmapNonNull _ | .setNull _ | .devmRelease
  | .requestIrq | .freeIrq | .ready _ | .bound _ | .acquire (.mapping _) | .release (.mapping _) => false
  | _ => true

theorem access_plain (p : IoPtr) (n : Nat) : ∀ op ∈ (access p n).ops, op.plain = true := by
  intro op mem
  rw [List.eq_of_mem_replicate mem]
  rfl

theorem prvReset_plain (syss : Nat → U8) : ∀ op ∈ (prvReset syss).ops, op.plain = true := by
  unfold prvReset
  refine all_bind (access_plain _ _) (all_bind (access_plain _ _) ?_)
  exact all_ite (by simp) (all_bind (access_plain _ _) (by simp))

theorem bmp280Init_plain (x : Bmp280Init) : ∀ op ∈ (bmp280Init x).ops, op.plain = true := by
  have failed : ∀ r : Int, ∀ op ∈ (tempSensorNodeError r).ops, op.plain = true := by
    intro r
    show ∀ op ∈ [Op.release .tempSensorNode], op.plain = true
    decide
  unfold bmp280Init
  refine all_ite (by simp) (all_bind (by decide) (all_ite (failed _) ?_))
  refine all_bind (by simp [Op.plain]) (all_bind (by simp [bmp280IsConnected, Op.plain]) (all_ite (failed _) ?_))
  exact all_bind (by decide) (all_bind (by decide) (all_bind (by decide) (by simp)))

theorem charDeviceCreate_plain (x : CharDeviceCreate) :
    ∀ op ∈ (charDeviceCreate x).ops, op.plain = true := by
  have failed : ∀ r : Int, ∀ op ∈ (deviceError r).ops, op.plain = true := by
    intro r
    show ∀ op ∈ [Op.deviceDestroy, .classDestroy, .unregisterChrdev, .kfree], op.plain = true
    decide
  have unnamed : ∀ r : Int, ∀ op ∈ (kmallocError r).ops, op.plain = true := by
    intro r
    show ∀ op ∈ [Op.kfree], op.plain = true
    decide
  unfold charDeviceCreate
  refine all_bind (by simp [Op.plain]) (all_ite (by simp) (all_ite (unnamed _) ?_))
  refine all_bind (by simp [Op.plain]) (all_bind (by simp [Op.plain]) (all_ite (by decide) ?_))
  refine all_bind (by simp [Op.plain]) (all_ite (by decide) (all_ite (failed _) ?_))
  exact all_bind (by decide) (by simp)

end Beaglebone.Driver
