import Beaglebone.Machine.Script
import Beaglebone.I2c.Call

/-!
# The static state of the BMP280 driver and what the kernel does to it

The operations that `driver_probe` and `driver_remove` perform, over the static
variables of the driver and the resources the kernel holds for it. Every resource
acquired or released is recorded in a ledger; a release is recorded whether or not
the resource is held. A thread that goes through a pointer to no mapping dies
there (`exec` gives `none`).
-/

namespace Beaglebone.Driver

open Machine I2c

/-- The three pointers to memory mapped registers. -/
inductive IoPtr where
  | i2c
  | clk
  | controlModule
  deriving DecidableEq, Repr

/-- The value of a pointer variable: NULL, an error pointer, or the `n`-th object
that the kernel handed out. -/
inductive Ptr where
  | null
  | err
  | at (n : Nat)
  deriving DecidableEq, Repr

/-- What a call that returns a pointer or an error pointer returned. -/
inductive ErrPtr where
  | null
  | err
  | ok
  deriving DecidableEq, Repr

inductive Resource where
  | mapping (n : Nat)
  | clkNode
  | pinmuxNode
  | tempSensorNode
  | fclk
  | irq (number : Int)
  | name (n : Nat)
  | region (major : U32)
  | cls (n : Nat)
  | device
  | cdev
  deriving DecidableEq, Repr

inductive Event where
  | acquire (r : Resource)
  | release (r : Resource)
  deriving DecidableEq, Repr

/-- The static variables of the driver, and what the kernel holds for it. -/
structure World where
  i2cPtr : Ptr := .null
  clkPtr : Ptr := .null
  controlModulePtr : Ptr := .null
  gIrq : Int := 0
  slaveAddress : U32 := 0
  deviceName : Ptr := .null
  deviceNumber : U32 := 0
  deviceClass : Ptr := .null
  /-- the number of the next object handed out -/
  next : Nat := 0
  /-- the mappings that exist, and those that the driver core releases -/
  mapped : List Nat := []
  managed : List Nat := []
  /-- the major numbers with a registered region -/
  regions : List U32 := []
  /-- a device exists in `device_class`, the handler is registered, the cdev is registered -/
  device : Bool := false
  irq : Bool := false
  cdev : Bool := false
  /-- the last probe returned 0 and the driver has not been removed since -/
  bound : Bool := false
  /-- history: `cotti_i2c_init` has returned 0 and `cotti_i2c_deinit` has not begun since -/
  ready : Bool := false
  /-- history: the ledger since the last probe began -/
  log : List Event := []

/-- An external operation with its result. -/
inductive Op where
  /-- `p = of_iomap(…)` -/
  | iomap (p : IoPtr) (ok : Bool)
  /-- `i2c_ptr = devm_platform_ioremap_resource(…)` -/
  | devmIomap (r : ErrPtr)
  | iounmap (p : IoPtr)
  /-- `if (p != NULL) iounmap(p)` -/
  | iounmapNonNull (p : IoPtr)
  | setNull (p : IoPtr)
  /-- an access to a register through `p` -/
  | access (p : IoPtr)
  | acquire (r : Resource)
  | release (r : Resource)
  /-- `clk_get_rate` of what `clk_get` returned -/
  | clkGetRate (r : ErrPtr)
  | setIrq (n : Int)
  | requestIrq
  | freeIrq
  | setSlaveAddress (a : U32)
  /-- `cotti_i2c_read(address, slave_address)` -/
  | i2cRead (address : U8)
  /-- `cotti_i2c_write(value, reg_address, slave_address)` -/
  | i2cWrite (value regAddress : U8)
  | kmalloc (ok : Bool)
  | kfree
  /-- `alloc_chrdev_region`, which chose this major number -/
  | allocChrdevRegion (major : BitVec 12)
  /-- `unregister_chrdev(device_number, …)` -/
  | unregisterChrdev
  | classCreate (r : ErrPtr)
  | classDestroy
  | deviceCreate (r : ErrPtr)
  | deviceDestroy
  | cdevAdd
  /-- history: see `World.ready` -/
  | ready (b : Bool)
  /-- the driver core: the outcome of a probe or the end of a remove, and the
  release of the managed mappings -/
  | bound (b : Bool)
  | devmRelease
  deriving DecidableEq, Repr

namespace World

def ptr (w : World) : IoPtr → Ptr
  | .i2c => w.i2cPtr
  | .clk => w.clkPtr
  | .controlModule => w.controlModulePtr

def setPtr (w : World) (v : Ptr) : IoPtr → World
  | .i2c => { w with i2cPtr := v }
  | .clk => { w with clkPtr := v }
  | .controlModule => { w with controlModulePtr := v }

/-- The pointer is to a mapping that exists. -/
def live (w : World) (p : IoPtr) : Bool :=
  match w.ptr p with
  | .at n => w.mapped.contains n
  | _ => false

/-- The pointer is NULL or its mapping has been released. -/
def bad (w : World) (p : IoPtr) : Bool :=
  match w.ptr p with
  | .null => true
  | .err => false
  | .at n => !w.mapped.contains n

/-- `MKDEV(major, MINOR_NUMBER)` -/
def mkdev (major : BitVec 12) : U32 := major.setWidth 32 <<< 20 ||| 0

/-- A new mapping in `p`. -/
def map (w : World) (p : IoPtr) : World :=
  { w.setPtr (.at w.next) p with
    next := w.next + 1
    mapped := w.next :: w.mapped
    log := w.log ++ [.acquire (.mapping w.next)] }

/-- `iounmap` of a pointer value. -/
def unmap (w : World) : Ptr → World
  | .at n => { w with mapped := w.mapped.filter (· ≠ n), log := w.log ++ [.release (.mapping n)] }
  | _ => w

/-- The call that an operation makes into `cotti_i2c.c`. -/
def call (w : World) : Op → Option Call
  | .i2cRead a => some (.read a (w.slaveAddress.setWidth 8))
  | .i2cWrite v r => some (.write v r (w.slaveAddress.setWidth 8))
  | _ => none

/-- The effect of an operation; `none` when the thread dies in it. -/
def exec (w : World) : Op → Option World
  | .iomap p ok => some (if ok then w.map p else w.setPtr .null p)
  | .devmIomap .ok => some { w.map .i2c with managed := w.next :: w.managed }
  | .devmIomap .null => some (w.setPtr .null .i2c)
  | .devmIomap .err => some (w.setPtr .err .i2c)
  | .iounmap p => some (w.unmap (w.ptr p))
  | .iounmapNonNull p => some (if w.ptr p = .null then w else w.unmap (w.ptr p))
  | .setNull p => some (w.setPtr .null p)
  | .access p => if w.live p then some w else none
  | .acquire r => some { w with log := w.log ++ [.acquire r] }
  | .release r => some { w with log := w.log ++ [.release r] }
  -- the clock framework follows an error pointer
  | .clkGetRate .err => none
  | .clkGetRate _ => some w
  | .setIrq n => some { w with gIrq := n }
  | .requestIrq => some { w with irq := true, log := w.log ++ [.acquire (.irq w.gIrq)] }
  | .freeIrq => some { w with irq := false, log := w.log ++ [.release (.irq w.gIrq)] }
  | .setSlaveAddress a => some { w with slaveAddress := a }
  | .i2cRead _ | .i2cWrite _ _ => if w.live .clk && w.live .i2c then some w else none
  | .kmalloc ok => some (if ok then { w with deviceName := .at w.next, next := w.next + 1,
                                             log := w.log ++ [.acquire (.name w.next)] }
                         else { w with deviceName := .null })
  | .kfree => match w.deviceName with
    | .at n => some { w with log := w.log ++ [.release (.name n)] }
    | _ => some w
  | .allocChrdevRegion major =>
    some { w with deviceNumber := mkdev major, regions := major.setWidth 32 :: w.regions,
                  log := w.log ++ [.acquire (.region (major.setWidth 32))] }
  | .unregisterChrdev =>
    if w.regions.contains w.deviceNumber then
      some { w with regions := w.regions.filter (· ≠ w.deviceNumber),
                    log := w.log ++ [.release (.region w.deviceNumber)] }
    else some w
  | .classCreate .ok => some { w with deviceClass := .at w.next, next := w.next + 1,
                                      log := w.log ++ [.acquire (.cls w.next)] }
  | .classCreate .null => some { w with deviceClass := .null }
  | .classCreate .err => some { w with deviceClass := .err }
  | .classDestroy => match w.deviceClass with
    | .at n => some { w with log := w.log ++ [.release (.cls n)] }
    | _ => some w
  | .deviceCreate .ok => some { w with device := true, log := w.log ++ [.acquire .device] }
  | .deviceCreate _ => some { w with device := false }
  | .deviceDestroy => match w.deviceClass with
    | .at _ => some (if w.device then { w with device := false, log := w.log ++ [.release .device] }
                     else w)
    | .null => some w
    | .err => none
  | .cdevAdd => some { w with cdev := true, log := w.log ++ [.acquire .cdev] }
  | .ready b => some { w with ready := b }
  | .bound b => some { w with bound := b }
  | .devmRelease =>
    some { w with managed := [], mapped := w.mapped.filter (· ∉ w.managed),
                  log := w.log ++ w.managed.map fun n => .release (.mapping n) }

end World

end Beaglebone.Driver
