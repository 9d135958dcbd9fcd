import Beaglebone.Driver.Probe
import Beaglebone.I2c.System

/-!
# Accesses to the registers over the life of the driver

The driver core's thread in `driver_probe` and `driver_remove`, the users of the
character device and `prv_isr`, in any order of steps. The thread is the process
`none` of the I2C driver while it is inside `cotti_i2c_read` or
`cotti_i2c_write`; what such a call returned is already part of the probe's
results, so its value is not looked at here. No register is accessed through a
pointer that is NULL or whose mapping is gone, provided that `prv_reset_i2c` has
not failed, that `prv_isr` does not run between the last `iounmap` and `free_irq`,
and that users keep away between `cotti_i2c_deinit` and the next `cotti_i2c_init`
(`registers_guarded`).
-/

namespace Beaglebone.I2c

open Driver

/-- The register block that a statement of a call accesses. -/
def Pc.accesses : Pc → Option IoPtr
  | .wakeup | .clkPoll => some .clk
  | .busPoll _ | .setSlave | .setCnt _ | .clearFifo | .start _ => some .i2c
  | _ => none

/-- The same for a statement of `prv_isr`. -/
def Isr.accesses : Isr → Option IoPtr
  | .test | .rrdyData _ | .xrdyData _ | .ack _ => some .i2c
  | _ => none

/-- The same for a step of the environment; `prv_isr` begins by reading
IRQENABLE_SET. -/
def Shared.accesses (s : Shared) : Env → Option IoPtr
  | .enter => some .i2c
  | .isr => s.isr.accesses
  | _ => none

/-- The same for a step of the I2C driver. -/
def accesses {P : Type} (g : State P) : Action P → Option IoPtr
  | .proc p _ => (g.proc p).pc.accesses
  | .env e => g.shared.accesses e

end Beaglebone.I2c

namespace Beaglebone.Driver

open Machine I2c Script

variable {P : Type}

/-- The state of the driver and of all its callers. `todo` is what the driver
core's thread has still to do; it is inside the I2C call at its head when
`calling`. -/
structure Sys (P : Type) where
  drv : World := {}
  todo : List Op := []
  calling : Bool := false
  bus : I2c.State (Option P) := I2c.initial (Option P)
  /-- history: a register has been accessed through NULL or a released mapping -/
  oops : Bool := false

/-- Start a probe or a remove, run the thread's next operation, or let the I2C
driver make a step: of the thread inside a call, of a user, or of the
environment. -/
inductive Act (P : Type) where
  | probe (x : Probe)
  | remove
  | thread
  | bus (a : I2c.Action (Option P))

/-- The operation goes through a pointer that is NULL or whose mapping is gone. -/
def World.oops (w : World) : Op → Bool
  | .access p => w.bad p
  | _ => false

namespace Sys

/-- A user calls only through a registered cdev; the thread is in the I2C driver
only during a call; the handler runs only while it is registered. -/
def allowed (s : Sys P) : I2c.Action (Option P) → Bool
  | .proc (some _) (.call _) => s.drv.cdev
  | .proc (some _) _ => true
  | .proc none (.call _) => false
  | .proc none _ => s.calling
  | .env .enter => s.drv.irq
  | .env _ => true

/-- The thread is done with the operation at its head, or dies in it. -/
def pop (s : Sys P) (op : Op) (ops : List Op) : Sys P :=
  match s.drv.exec op with
  | some w => { s with drv := w, todo := ops, calling := false, oops := s.oops || s.drv.oops op }
  | none => { s with oops := s.oops || s.drv.oops op }

variable [DecidableEq P]

def step (s : Sys P) : Act P → Option (Sys P)
  | .probe x => if s.todo = [] ∧ s.drv.bound = false then some { s with todo := (probe x).ops } else none
  | .remove => if s.todo = [] ∧ s.drv.bound = true then some { s with todo := remove.ops } else none
  | .bus a =>
    if s.allowed a then (I2c.step s.bus a).map fun b =>
      { s with bus := b, oops := s.oops || (I2c.accesses s.bus a).any s.drv.bad }
    else none
  | .thread => match s.todo with
    | [] => none
    -- `free_irq` waits for a handler that is running
    | .freeIrq :: ops => if s.bus.shared.isr = .off then some (s.pop .freeIrq ops) else none
    | op :: ops => match s.drv.call op with
      | none => some (s.pop op ops)
      | some c =>
        if s.calling then
          if (s.bus.proc none).pc = .idle then some (s.pop op ops) else none
        else (I2c.step s.bus (.proc none (.call c))).map fun b => { s with bus := b, calling := true }

end Sys

/-- The condition of `registers_guarded`: the controller comes out of reset within
the polls, `prv_isr` accesses no register between the `iounmap` of `i2c_ptr` and
`free_irq`, and a user accesses none between `cotti_i2c_deinit` and the next
success of `cotti_i2c_init`. -/
def Careful (s : Sys P) : Act P → Prop
  | .probe x => x.i2c.Maps → (prvResetI2c x.i2c.syss).1 = 0
  | .bus (.env e) => s.bus.shared.accesses e = none ∨ s.todo.head? ≠ some .freeIrq
  | .bus (.proc (some p) _) => (s.bus.proc (some p)).pc.accesses = none ∨ s.drv.ready = true
  | _ => True

instance (s : Sys P) : (a : Act P) → Decidable (Careful s a)
  | .probe x => inferInstanceAs (Decidable (x.i2c.Maps → (prvResetI2c x.i2c.syss).1 = 0))
  | .bus (.env e) =>
    inferInstanceAs (Decidable (s.bus.shared.accesses e = none ∨ s.todo.head? ≠ some .freeIrq))
  | .bus (.proc (some p) _) =>
    inferInstanceAs (Decidable ((s.bus.proc (some p)).pc.accesses = none ∨ s.drv.ready = true))
  | .bus (.proc none _) | .remove | .thread => .isTrue trivial

/-! ## What the thread guarantees at each of its operations -/

section Thread

/-- While the driver is ready, or the handler registered, their registers are
mapped; the thread itself goes through no bad pointer. -/
structure Here (w : World) (op : Op) : Prop where
  users : w.ready = true → w.live .clk = true ∧ w.live .i2c = true
  handler : w.irq = true → w.live .i2c = true ∨ op = .freeIrq
  call : (w.call op).isSome = true → w.live .clk = true ∧ w.live .i2c = true
  access : w.oops op = false

/-- Nobody but the thread accesses the registers. -/
structure Down (b : Bool) (w : World) : Prop where
  ready : w.ready = false
  irq : w.irq = false
  bound : w.bound = b

/-- The three register blocks are mapped, `i2c_ptr` apart from the others. -/
structure Up (b : Bool) (w : World) : Prop where
  clk : w.live .clk = true
  controlModule : w.live .controlModule = true
  i2c : ∃ n, w.i2cPtr = .at n ∧ n ∈ w.mapped ∧ w.clkPtr ≠ .at n ∧ w.controlModulePtr ≠ .at n
  bound : w.bound = b

/-- Between a probe and a remove. -/
def Rest (w : World) : Prop := Up true w ∨ Down false w

/-- The operation accesses no register and lets nobody else do so. -/
def Op.silent : Op → Bool
  | .access _ | .i2cRead _ | .i2cWrite _ _ | .requestIrq | .ready true | .bound _ => false
  | _ => true

variable {w w' : World} {op : Op} {b : Bool} {α β : Type} {m : Code α} {f : α → Code β}
  {Q : β → World → Prop}

/-- `m` is safe from `A`, and ends in `B`. -/
abbrev Guards (A : World → Prop) (m : Code α) (B : α → World → Prop) : Prop :=
  Ensures World.exec Here A m B

theorem live_eq {p : IoPtr} (h : w.live p = true) : ∃ n, w.ptr p = .at n ∧ n ∈ w.mapped := by
  unfold World.live at h
  split at h
  · next n ptr => exact ⟨n, ptr, by simpa using h⟩
  · cases h

theorem live_of {p : IoPtr} {n : Nat} (ptr : w.ptr p = .at n) (mapped : n ∈ w.mapped) : w.live p = true := by
  simp [World.live, ptr, mapped]

theorem bad_of_live {p : IoPtr} (h : w.live p = true) : w.bad p = false := by
  obtain ⟨n, ptr, mapped⟩ := live_eq h
  simp [World.bad, ptr, mapped]

theorem Up.i2c_live (h : Up b w) : w.live .i2c = true := by
  obtain ⟨n, ptr, mapped, -, -⟩ := h.i2c
  exact live_of ptr mapped

theorem Up.here (h : Up b w) (op : Op) : Here w op := by
  have both : w.live .clk = true ∧ w.live .i2c = true := ⟨h.clk, h.i2c_live⟩
  constructor
  · exact fun _ => both
  · exact fun _ => .inl both.2
  · exact fun _ => both
  · cases op with
    | access p =>
      apply bad_of_live
      cases p with
      | i2c => exact both.2
      | clk => exact both.1
      | controlModule => exact h.controlModule
    | _ => rfl

theorem Down.here (h : Down b w) (silent : op.silent = true) : Here w op := by
  constructor
  · simp [h.ready]
  · simp [h.irq]
  · intro call
    cases op with
    | i2cRead | i2cWrite => cases silent
    | _ => cases call
  · cases op with
    | access => cases silent
    | _ => rfl

/-- A plain operation changes none of what the assertions are about. -/
theorem exec_plain (plain : op.plain = true) (he : w.exec op = some w') :
    w'.i2cPtr = w.i2cPtr ∧ w'.clkPtr = w.clkPtr ∧ w'.controlModulePtr = w.controlModulePtr ∧
      w'.mapped = w.mapped ∧ w'.ready = w.ready ∧ w'.irq = w.irq ∧ w'.bound = w.bound := by
  cases op with
  | iomap | devmIomap | iounmap | iounmapNonNull | setNull | devmRelease | requestIrq | freeIrq | ready
  | bound => cases plain
  | acquire | release => cases he; simp
  | access | i2cRead | i2cWrite | unregisterChrdev | kfree | classDestroy =>
    simp only [World.exec] at he
    split at he <;> cases he <;> simp
  | deviceDestroy =>
    simp only [World.exec] at he
    split at he
    · split at he <;> cases he <;> simp
    · cases he; simp
    · cases he
  | kmalloc r | clkGetRate r | classCreate r | deviceCreate r => cases r <;> cases he <;> simp
  | _ => cases he; simp

theorem Up.plain (h : Up b w) (plain : op.plain = true) (he : w.exec op = some w') : Up b w' := by
  obtain ⟨i2c, clk, controlModule, mapped, -, -, bound⟩ := exec_plain plain he
  obtain ⟨n, hn⟩ := h.i2c
  constructor
  · simpa [World.live, World.ptr, clk, mapped] using h.clk
  · simpa [World.live, World.ptr, controlModule, mapped] using h.controlModule
  · exact ⟨n, by rwa [i2c, clk, controlModule, mapped]⟩
  · exact bound.trans h.bound

theorem Down.plain (h : Down b w) (plain : op.plain = true) (he : w.exec op = some w') : Down b w' := by
  obtain ⟨-, -, -, -, ready, irq, bound⟩ := exec_plain plain he
  exact ⟨ready.trans h.ready, irq.trans h.irq, bound.trans h.bound⟩

theorem unmap_flags (v : Ptr) : (w.unmap v).ready = w.ready ∧ (w.unmap v).irq = w.irq ∧
    (w.unmap v).bound = w.bound := by
  cases v <;> simp [World.unmap]

theorem Down.silent (h : Down b w) (silent : op.silent = true) (he : w.exec op = some w') : Down b w' := by
  cases plain : op.plain with
  | true => exact h.plain plain he
  | false =>
    obtain ⟨ready, irq, bound⟩ := h
    cases op with
    | requestIrq | bound => cases silent
    | ready r =>
      cases r with
      | true => cases silent
      | false => cases he; exact ⟨rfl, irq, bound⟩
    | iomap p r => cases p <;> cases r <;> cases he <;> exact ⟨ready, irq, bound⟩
    | devmIomap r => cases r <;> cases he <;> exact ⟨ready, irq, bound⟩
    | setNull p => cases p <;> cases he <;> exact ⟨ready, irq, bound⟩
    | iounmap p =>
      cases he
      obtain ⟨r, i, bd⟩ := unmap_flags (w := w) (w.ptr p)
      exact ⟨r.trans ready, i.trans irq, bd.trans bound⟩
    | iounmapNonNull p =>
      cases he
      split
      · exact ⟨ready, irq, bound⟩
      · obtain ⟨r, i, bd⟩ := unmap_flags (w := w) (w.ptr p)
        exact ⟨r.trans ready, i.trans irq, bd.trans bound⟩
    | devmRelease | acquire | release => cases he; exact ⟨ready, irq, bound⟩
    | freeIrq => cases he; exact ⟨ready, rfl, bound⟩
    | _ => cases plain

/-- Silent operations while nobody else accesses the registers. -/
theorem Down.after (silent : ∀ op ∈ m.ops, op.silent = true) : Guards (Down b) m fun _ => Down b := by
  intro w h
  apply along_of_forall _ _ h
  · exact fun w h op mem => h.here (silent op mem)
  · exact fun w w' h op mem => h.silent (silent op mem)

/-- Plain operations while the registers are mapped. -/
theorem Up.after (plain : ∀ op ∈ m.ops, op.plain = true) : Guards (Up b) m fun _ => Up b := by
  intro w h
  apply along_of_forall _ _ h
  · exact fun w h op _ => h.here op
  · exact fun w w' h op mem => h.plain (plain op mem)

theorem Up.then (plain : ∀ op ∈ m.ops, op.plain = true) (k : Guards (Up b) (f m.val) Q) :
    Guards (Up b) (m >>= f) Q :=
  Ensures.bind (Up.after plain) k

theorem Down.then (silent : ∀ op ∈ m.ops, op.silent = true) (k : Guards (Down b) (f m.val) Q) :
    Guards (Down b) (m >>= f) Q :=
  Ensures.bind (Down.after silent) k

/-! `cotti_i2c_init` -/

/-- `clk_ptr` is the only mapping made. -/
def ClkUp (w : World) : Prop := Down false w ∧ ∃ k, w.clkPtr = .at k ∧ k ∈ w.mapped ∧ k < w.next

/-- `clk_ptr` and `control_module_ptr` are mapped. -/
def ControlModuleUp (w : World) : Prop :=
  ClkUp w ∧ ∃ k, w.controlModulePtr = .at k ∧ k ∈ w.mapped ∧ k < w.next

/-- All three are mapped, nobody else accesses the registers. -/
def AllUp (w : World) : Prop := Down false w ∧ Up false w

/-- What `cotti_i2c_init` and `driver_probe` guarantee at their end. -/
def Probed (v : Int) (w : World) : Prop := if v = 0 then Up false w else Down false w

theorem Down.probed {v : Int} (ne : v ≠ 0) (h : Down false w) : Probed v w := by
  rwa [Probed, if_neg ne]

theorem Probed.up {v : Int} (zero : v = 0) (h : Probed v w) : Up false w := by
  rwa [Probed, if_pos zero] at h

theorem Probed.down {v : Int} (ne : v ≠ 0) (h : Probed v w) : Down false w := by
  rwa [Probed, if_neg ne] at h

/-- An exit of `cotti_i2c_init`. -/
theorem exit_guards {m : Code Int} (silent : ∀ op ∈ m.ops, op.silent = true) (ne : m.val ≠ 0) :
    Guards (Down false) m Probed :=
  (Down.after silent).conseq (fun _ => id) fun _ => Down.probed ne

/-- Only what is no error pointer gets through the clock framework. -/
theorem clkRate_guards (r : ErrPtr) :
    Guards (Down false) (clkRate r) fun _ w => r ≠ .err ∧ Down false w := by
  cases r with
  | ok | null => exact (Down.after (by decide)).conseq (fun _ => id) fun _ h => ⟨by decide, h⟩
  | err =>
    intro w h
    exact ⟨h.here rfl, fun w' he => by cases he⟩

theorem clkPtr_guards : Guards (Down false) (emit (.iomap .clk true)) fun _ => ClkUp := by
  intro w h
  apply Along.cons (h.here rfl) rfl
  exact ⟨⟨h.ready, h.irq, h.bound⟩, w.next, rfl, List.mem_cons_self, Nat.lt_succ_self _⟩

theorem controlModulePtr_guards :
    Guards ClkUp (emit (.iomap .controlModule true)) fun _ => ControlModuleUp := by
  rintro w ⟨h, k, ptr, mapped, lt⟩
  apply Along.cons (h.here rfl) rfl
  refine ⟨⟨⟨h.ready, h.irq, h.bound⟩, k, ptr, List.mem_cons_of_mem _ mapped, Nat.lt_succ_of_lt lt⟩, ?_⟩
  exact ⟨w.next, rfl, List.mem_cons_self, Nat.lt_succ_self _⟩

theorem i2cPtr_guards : Guards ControlModuleUp (emit (.devmIomap .ok)) fun _ => AllUp := by
  rintro w ⟨⟨h, k, clk, clkMapped, clkLt⟩, m, module, moduleMapped, moduleLt⟩
  apply Along.cons (h.here rfl) rfl
  refine ⟨⟨h.ready, h.irq, h.bound⟩, ?_, ?_, ⟨w.next, rfl, List.mem_cons_self, ?_, ?_⟩, h.bound⟩
  · exact live_of (p := .clk) clk (List.mem_cons_of_mem _ clkMapped)
  · exact live_of (p := .controlModule) module (List.mem_cons_of_mem _ moduleMapped)
  · show w.clkPtr ≠ .at w.next
    rw [clk, ne_eq, Ptr.at.injEq]
    omega
  · show w.controlModulePtr ≠ .at w.next
    rw [module, ne_eq, Ptr.at.injEq]
    omega

theorem AllUp.plain (h : AllUp w) (plain : op.plain = true) (he : w.exec op = some w') : AllUp w' :=
  ⟨h.1.plain plain he, h.2.plain plain he⟩

theorem AllUp.andThen (plain : ∀ op ∈ m.ops, op.plain = true) (k : Guards AllUp (f m.val) Q) :
    Guards AllUp (m >>= f) Q := by
  have skip : Guards AllUp m fun _ => AllUp := by
    intro w h
    apply along_of_forall _ _ h
    · exact fun w h op _ => h.2.here op
    · exact fun w w' h op mem => h.plain (plain op mem)
  exact Ensures.bind skip k

theorem prvReset_val (syss : Nat → U8) (reset : (prvResetI2c syss).1 = 0) : (prvReset syss).val = 0 := by
  simp [prvReset, reset]

/-- From the pins on, provided that the controller comes out of reset. -/
theorem configure_guards (x : I2cInit) (retval : Int) (reset : (prvResetI2c x.syss).1 = 0) :
    Guards AllUp (cottiI2cConfigure x retval) Probed := by
  have ladder : ∀ r : Int, r ≠ 0 → Guards AllUp (i2cPtrError r) Probed := by
    intro r ne
    apply Ensures.pre (exit_guards _ ne) fun _ => And.left
    rw [i2cPtrError_ops]
    decide
  have request : Guards AllUp (emit .requestIrq) fun _ => Up false := fun w h =>
    Along.cons (h.2.here _) rfl ⟨h.2.clk, h.2.controlModule, h.2.i2c, h.2.bound⟩
  unfold cottiI2cConfigure prvWakeup
  apply AllUp.andThen (access_plain _ _)
  apply AllUp.andThen (access_plain _ _)
  apply AllUp.andThen (prvReset_plain _)
  rw [prvReset_val _ reset]
  apply AllUp.andThen (access_plain _ _)
  apply AllUp.andThen (by simp [Op.plain])
  refine Ensures.ite (fun neg => ladder _ (by omega)) fun _ => ?_
  refine Ensures.ite (fun neg => ladder _ (by omega)) fun _ => ?_
  apply Ensures.bind request
  apply Up.then (by decide)
  apply Up.then (by decide)
  exact Ensures.pure fun _ => id

/-- An error pointer is not followed further than to the first access. -/
theorem configure_guards_err (x : I2cInit) (retval : Int) :
    Guards (fun w => ControlModuleUp w ∧ w.i2cPtr = .err) (cottiI2cConfigure x retval) Probed := by
  have keep : ∀ p n, p ≠ .i2c → Guards (fun w => ControlModuleUp w ∧ w.i2cPtr = .err) (access p n)
      fun _ w => ControlModuleUp w ∧ w.i2cPtr = .err := by
    intro p n other w h
    refine along_of_forall ?_ ?_ h
    · rintro w ⟨⟨⟨down, k, clk, clkMapped, -⟩, m, module, moduleMapped, -⟩, -⟩ op mem
      rw [List.eq_of_mem_replicate mem]
      refine ⟨by simp [down.ready], by simp [down.irq], nofun, bad_of_live ?_⟩
      cases p with
      | i2c => exact absurd rfl other
      | clk => exact live_of clk clkMapped
      | controlModule => exact live_of module moduleMapped
    · intro w w' h op mem he
      rw [List.eq_of_mem_replicate mem] at he
      simp only [World.exec] at he
      split at he <;> cases he
      exact h
  have dies : Guards (fun w => ControlModuleUp w ∧ w.i2cPtr = .err) (access .i2c 4) fun _ _ => False := by
    rintro w ⟨⟨⟨down, -⟩, -⟩, err⟩
    constructor
    · refine ⟨by simp [down.ready], by simp [down.irq], nofun, ?_⟩
      simp [World.oops, World.bad, World.ptr, err]
    · intro s hs
      simp [World.exec, World.live, World.ptr, err] at hs
  have never : ∀ m : Code Int, Guards (fun _ => False) m fun _ _ => False := fun _ _ h => h.elim
  unfold cottiI2cConfigure prvWakeup prvReset
  apply Ensures.bind (keep _ _ (by decide))
  apply Ensures.bind (keep _ _ (by decide))
  exact Ensures.bind (Ensures.bind dies (never _)) fun _ h => h.elim

theorem init_guards {x : I2cInit} (reset : x.Maps → (prvResetI2c x.syss).1 = 0) :
    Guards (Down false) (cottiI2cInit x) Probed := by
  have clkFailed : Guards (Down false) (emit (.iomap .clk false)) fun _ => Down false :=
    Down.after (by decide)
  have moduleFailed : Guards ClkUp (emit (.iomap .controlModule false)) fun _ => Down false :=
    Ensures.pre (Down.after (by decide)) fun _ => And.left
  have i2cFailed : Guards ControlModuleUp (emit (.devmIomap .null)) fun _ => Down false :=
    Ensures.pre (Down.after (by decide)) fun _ h => h.1.1
  have i2cError : Guards ControlModuleUp (emit (.devmIomap .err)) fun _ w =>
      ControlModuleUp w ∧ w.i2cPtr = .err := by
    rintro w ⟨⟨h, clk⟩, module⟩
    exact Along.cons (h.here rfl) rfl ⟨⟨⟨⟨h.ready, h.irq, h.bound⟩, clk⟩, module⟩, rfl⟩
  have clkExit : Guards (Down false) (pinmuxNodeError (-1)) Probed := exit_guards (by decide) (by decide)
  have moduleExit : Guards (Down false) (clkPtrError (-1)) Probed := exit_guards (by decide) (by decide)
  have i2cExit : Guards (Down false) (controlModulePtrError (-1)) Probed :=
    exit_guards (by decide) (by decide)
  have early : ∀ r : Int, r ≠ 0 → Guards (Down false) (pdevError r) Probed := by
    intro r ne
    refine exit_guards ?_ ne
    rw [pdevError_ops]
    decide
  unfold cottiI2cInit
  refine Ensures.ite (fun _ => early _ (by decide)) fun parent => ?_
  refine Ensures.ite (fun _ => early _ (by decide)) fun properties => ?_
  refine Ensures.ite (early _) fun read => ?_
  refine Ensures.ite (fun _ => early _ (by decide)) fun clkNode => ?_
  apply Down.then (by decide)
  refine Ensures.ite (fun _ => exit_guards (by decide) (by decide)) fun pinmuxNode => ?_
  apply Down.then (by decide)
  refine Ensures.ite (fun _ => exit_guards (by decide) (by decide)) fun present => ?_
  apply Ensures.bind (clkRate_guards x.fclk)
  by_cases dead : x.fclk = .err
  · exact fun _ h => absurd dead h.1
  apply Ensures.pre _ fun _ => And.right
  cases clk : x.clkPtr with
  | false => exact Ensures.bind clkFailed clkExit
  | true =>
    apply Ensures.bind clkPtr_guards
    cases module : x.controlModulePtr with
    | false => exact Ensures.bind moduleFailed moduleExit
    | true =>
      apply Ensures.bind controlModulePtr_guards
      cases i2c : x.i2cPtr with
      | null => exact Ensures.bind i2cFailed i2cExit
      | err => exact Ensures.bind i2cError (configure_guards_err x _)
      | ok =>
        have asks := asksClk_of parent properties read clkNode pinmuxNode
        have maps : x.Maps := ⟨asks.reaches (ErrPtr.ok_of present dead) clk module, i2c⟩
        exact Ensures.bind i2cPtr_guards (configure_guards x _ (reset maps))

/-- Why the condition on the reset is there: its failure is not reported, since
`retval` still holds the 0 of the last property that was read. -/
theorem failedReset_val {x : I2cInit} (maps : x.Maps) (fails : (prvResetI2c x.syss).1 ≠ 0) :
    (cottiI2cInit x).val = 0 := by
  obtain ⟨-, val⟩ := init_reaches maps.1 (by rw [maps.2]; decide)
  have reset : (prvReset x.syss).val ≠ 0 := by simp [prvReset, fails]
  rw [val]
  unfold cottiI2cConfigure
  simp only [bind_val]
  rw [if_pos reset]
  rfl

/-! `driver_probe` and `driver_remove` -/

/-- The handler may still run. -/
structure Closing (b : Bool) (w : World) : Prop where
  ready : w.ready = false
  bound : w.bound = b
  i2c : ∃ n, w.i2cPtr = .at n ∧ n ∈ w.mapped ∧ w.clkPtr ≠ .at n ∧ w.controlModulePtr ≠ .at n

theorem Closing.here (h : Closing b w) (p : IoPtr) : Here w (.iounmapNonNull p) := by
  obtain ⟨n, ptr, mapped, -, -⟩ := h.i2c
  constructor
  · simp [h.ready]
  · exact fun _ => .inl (live_of ptr mapped)
  · nofun
  · rfl

theorem Closing.unmap {v : Ptr} (h : Closing b w) (ne : w.i2cPtr ≠ v) : Closing b (w.unmap v) := by
  cases v with
  | null | err => exact h
  | «at» m =>
    obtain ⟨n, ptr, mapped, clk, module⟩ := h.i2c
    have other : n ≠ m := fun e => ne (ptr.trans (congrArg Ptr.at e))
    exact ⟨h.ready, h.bound, n, ptr, List.mem_filter.2 ⟨mapped, by simpa using other⟩, clk, module⟩

/-- Releasing the mapping of another pointer. -/
theorem closing_guards {p : IoPtr} (other : p ≠ .i2c) :
    Guards (Closing b) (emit (.iounmapNonNull p)) fun _ => Closing b := by
  intro w h
  apply Along.cons (h.here p) rfl
  have ne : w.i2cPtr ≠ w.ptr p := by
    obtain ⟨n, ptr, -, clk, module⟩ := h.i2c
    rw [ptr]
    cases p with
    | i2c => exact absurd rfl other
    | clk => exact clk.symm
    | controlModule => exact module.symm
  show Closing b (if _ then _ else _)
  split
  · exact h
  · exact h.unmap ne

/-- `cotti_i2c_deinit`: the handler outlives the mapping, up to `free_irq`. -/
theorem deinit_guards : Guards (Up b) cottiI2cDeinit fun _ => Down b := by
  have begin : Guards (Up b) (emit (.ready false)) fun _ => Closing b := fun w h =>
    Along.cons (h.here _) rfl ⟨rfl, h.bound, h.i2c⟩
  have last : Guards (Closing b) (emit (.iounmapNonNull .i2c)) fun _ w => w.ready = false ∧ w.bound = b := by
    intro w h
    apply Along.cons (h.here _) rfl
    show World.ready (if _ then _ else _) = false ∧ _
    split
    · exact ⟨h.ready, h.bound⟩
    · obtain ⟨ready, -, bound⟩ := unmap_flags (w := w) (w.ptr .i2c)
      exact ⟨ready.trans h.ready, bound.trans h.bound⟩
  have free : Guards (fun w => w.ready = false ∧ w.bound = b) (emit .freeIrq) fun _ => Down b := by
    rintro w ⟨ready, bound⟩
    refine Along.cons ⟨by simp [ready], fun _ => .inr rfl, nofun, rfl⟩ rfl ?_
    exact ⟨ready, rfl, bound⟩
  unfold cottiI2cDeinit
  apply Ensures.bind begin
  apply Ensures.bind (closing_guards (by decide))
  apply Ensures.bind (closing_guards (by decide))
  exact Ensures.bind last free

theorem driverProbe_guards {x : Probe} (reset : x.i2c.Maps → (prvResetI2c x.i2c.syss).1 = 0) :
    Guards (Down false) (driverProbe x) Probed := by
  have fail : ∀ r, r ≠ 0 → Guards (Up false) (i2cError r) Probed := fun r ne =>
    Ensures.bind deinit_guards (Ensures.pure fun _ => Down.probed ne)
  have ready : Guards (Up false) (emit (.ready true)) fun _ => Up false := fun w h =>
    Along.cons (h.here _) rfl ⟨h.clk, h.controlModule, h.i2c, h.bound⟩
  unfold driverProbe
  apply Ensures.bind (init_guards reset)
  split
  · exact Ensures.pure fun _ => id
  · next zero =>
    refine Ensures.pre ?_ fun _ => Probed.up (not_not.1 zero)
    apply Ensures.bind ready
    apply Up.then (bmp280Init_plain _)
    split
    · next ne => exact fail _ ne
    apply Up.then (charDeviceCreate_plain _)
    split
    · next ne => exact Up.then (by decide) (fail _ ne)
    exact Ensures.pure fun _ => id

theorem probe_guards {x : Probe} (reset : x.i2c.Maps → (prvResetI2c x.i2c.syss).1 = 0) :
    Guards (Down false) (probe x) fun _ => Rest := by
  unfold probe
  apply Ensures.bind (driverProbe_guards reset)
  split
  · next zero =>
    have bound : Guards (Up false) (emit (.bound true)) fun _ => Rest := fun w h =>
      Along.cons (h.here _) rfl (.inl ⟨h.clk, h.controlModule, h.i2c, rfl⟩)
    exact Ensures.pre bound fun _ => Probed.up zero
  · next ne => exact (Down.after (by decide)).conseq (fun _ => Probed.down ne) fun _ => .inr

theorem remove_guards : Guards (Up true) remove fun _ => Rest := by
  have removed : Guards (Up true) driverRemove fun _ => Down true :=
    Up.then (by decide) (Up.then (by decide) deinit_guards)
  have unbound : Guards (Down true) (emit (.bound false)) fun _ => Rest := fun w h =>
    Along.cons ⟨by simp [h.ready], by simp [h.irq], nofun, rfl⟩ rfl (.inr ⟨h.ready, h.irq, rfl⟩)
  exact Ensures.bind removed (Down.then (by decide) unbound)

end Thread

/-! ## All interleavings -/

section Interleaving

variable {P : Type} {s s' : Sys P}

/-- The invariant: no access has gone wrong; the rest of what the thread has to do
is safe; it is in the I2C driver only for the operation at its head; a handler
that runs is registered. -/
structure Safe (s : Sys P) : Prop where
  oops : s.oops = false
  thread : Along World.exec Here Rest s.drv s.todo
  calling : s.calling = true → ∃ op ops, s.todo = op :: ops ∧ (s.drv.call op).isSome = true
  handler : s.bus.shared.isr ≠ .off → s.drv.irq = true

theorem Rest.ready {w : World} (h : Rest w) (ready : w.ready = true) : w.live .clk = true ∧ w.live .i2c = true := by
  rcases h with up | down
  · exact ⟨up.clk, up.i2c_live⟩
  · rw [down.ready] at ready
    cases ready

theorem Rest.irq {w : World} (h : Rest w) (irq : w.irq = true) : w.live .i2c = true := by
  rcases h with up | down
  · exact up.i2c_live
  · rw [down.irq] at irq
    cases irq

theorem not_bad {w : World} {p : IoPtr} (live : w.live .clk = true ∧ w.live .i2c = true)
    (ne : p ≠ .controlModule) : w.bad p = false := by
  apply bad_of_live
  cases p with
  | i2c => exact live.2
  | clk => exact live.1
  | controlModule => exact absurd rfl ne

/-- While the driver is ready, the registers that users access are mapped. -/
theorem Safe.user (h : Safe s) (ready : s.drv.ready = true) :
    s.drv.live .clk = true ∧ s.drv.live .i2c = true := by
  have thread := h.thread
  cases todo : s.todo with
  | nil => rw [todo] at thread; exact thread.ready ready
  | cons op ops => rw [todo] at thread; exact thread.1.users ready

/-- During a call of the thread they are mapped. -/
theorem Safe.call (h : Safe s) (calling : s.calling = true) :
    s.drv.live .clk = true ∧ s.drv.live .i2c = true := by
  obtain ⟨op, ops, todo, isCall⟩ := h.calling calling
  have thread := h.thread
  rw [todo] at thread
  exact thread.1.call isCall

/-- While the handler is registered, those of the controller are mapped, except
between the `iounmap` and `free_irq`. -/
theorem Safe.isr (h : Safe s) (irq : s.drv.irq = true) (early : s.todo.head? ≠ some .freeIrq) :
    s.drv.live .i2c = true := by
  have thread := h.thread
  cases todo : s.todo with
  | nil => rw [todo] at thread; exact thread.irq irq
  | cons op ops =>
    rw [todo] at thread early
    rcases thread.1.handler irq with live | free
    · exact live
    · exact absurd (congrArg some free) early

theorem Safe.not_calling (h : Safe s) (todo : s.todo = []) : s.calling ≠ true := by
  intro calling
  obtain ⟨op, ops, cons, -⟩ := h.calling calling
  rw [todo] at cons
  cases cons

/-- Only `free_irq` takes the handler away. -/
theorem exec_irq {w w' : World} {op : Op} (he : w.exec op = some w') (ne : op ≠ .freeIrq) (irq : w.irq = true) :
    w'.irq = true := by
  cases plain : op.plain with
  | true =>
    obtain ⟨-, -, -, -, -, same, -⟩ := exec_plain plain he
    exact same.trans irq
  | false =>
    cases op with
    | freeIrq => exact absurd rfl ne
    | iomap p r => cases p <;> cases r <;> cases he <;> exact irq
    | devmIomap r => cases r <;> cases he <;> exact irq
    | setNull p => cases p <;> cases he <;> exact irq
    | iounmap p =>
      cases he
      exact (unmap_flags (w.ptr p)).2.1.trans irq
    | iounmapNonNull p =>
      cases he
      split
      · exact irq
      · exact (unmap_flags (w.ptr p)).2.1.trans irq
    | requestIrq => cases he; rfl
    | devmRelease | acquire | release | ready | bound => cases he; exact irq
    | _ => cases plain

/-- The thread's next operation. -/
theorem Safe.pop {op : Op} {ops : List Op} (h : Safe s) (todo : s.todo = op :: ops)
    (off : op = .freeIrq → s.bus.shared.isr = .off) : Safe (s.pop op ops) := by
  have thread := h.thread
  rw [todo] at thread
  have clean : (s.oops || s.drv.oops op) = false := by rw [h.oops, thread.1.access]; rfl
  unfold Sys.pop
  cases he : s.drv.exec op with
  | none => exact ⟨clean, h.thread, h.calling, h.handler⟩
  | some w =>
    refine ⟨clean, thread.2 w he, nofun, fun runs => ?_⟩
    exact exec_irq he (fun free => runs (off free)) (h.handler runs)

variable [DecidableEq P]

/-- No statement of a call touches the handler. -/
theorem proc_isr {g g' : I2c.State (Option P)} {p : Option P} {i : Input}
    (h : I2c.step g (.proc p i) = some g') : g'.shared.isr = g.shared.isr := by
  obtain ⟨m, hr, -, shared, -⟩ := Monitor.step_proc h
  rw [shared]
  cases Proc.run_stmt hr <;> rfl

/-- The handler begins to run only when it is entered. -/
theorem env_isr {t t' : Shared} {e : Env} (h : EnvStep t e t') (ne : e ≠ .enter) (runs : t'.isr ≠ .off) :
    t.isr ≠ .off := by
  cases h with
  | enter => exact absurd rfl ne
  | finish => exact absurd rfl runs
  | bus | xrdy | rrdy | ardy | nack | al => exact runs
  | _ => simp_all

theorem pc_accesses {pc : Pc} {p : IoPtr} (h : pc.accesses = some p) : p ≠ .controlModule := by
  cases pc <;> cases h <;> decide

theorem isr_accesses {i : Isr} {p : IoPtr} (h : i.accesses = some p) : p = .i2c ∧ i ≠ .off := by
  cases i <;> cases h <;> exact ⟨rfl, nofun⟩

/-- A step of the I2C driver goes through no bad pointer. -/
theorem Safe.bus {a : I2c.Action (Option P)} {g : I2c.State (Option P)} (h : Safe s) (careful : Careful s (.bus a))
    (allowed : s.allowed a = true) (hs : I2c.step s.bus a = some g) :
    (I2c.accesses s.bus a).any s.drv.bad = false := by
  cases hp : I2c.accesses s.bus a with
  | none => rfl
  | some p =>
    show s.drv.bad p = false
    cases a with
    | env e =>
      have early : s.todo.head? ≠ some .freeIrq := careful.resolve_left fun no => by
        rw [show I2c.accesses s.bus (.env e) = s.bus.shared.accesses e from rfl, no] at hp
        cases hp
      have live : s.drv.irq = true → s.drv.bad .i2c = false := fun irq => bad_of_live (h.isr irq early)
      cases e with
      | enter => cases hp; exact live allowed
      | isr =>
        obtain ⟨i2c, runs⟩ := isr_accesses hp
        rw [i2c]
        exact live (h.handler runs)
      | _ => cases hp
    | proc q i =>
      apply not_bad _ (pc_accesses hp)
      cases q with
      | none =>
        apply h.call
        cases i with
        | call => cases allowed
        | _ => exact allowed
      | some q =>
        apply h.user
        apply careful.resolve_left fun no => ?_
        rw [show I2c.accesses s.bus (.proc (some q) i) = (s.bus.proc (some q)).pc.accesses from rfl, no] at hp
        cases hp

theorem Safe.step {a : Act P} (h : Safe s) (careful : Careful s a) (hs : s.step a = some s') : Safe s' := by
  cases a with
  | probe x =>
    simp only [Sys.step] at hs
    split at hs
    · next start =>
      cases hs
      have down : Down false s.drv := by
        have rest := h.thread
        rw [start.1] at rest
        apply rest.resolve_left fun up => ?_
        rw [up.bound] at start
        cases start.2
      exact ⟨h.oops, probe_guards careful _ down, fun calling => absurd calling (h.not_calling start.1), h.handler⟩
    · cases hs
  | remove =>
    simp only [Sys.step] at hs
    split at hs
    · next start =>
      cases hs
      have up : Up true s.drv := by
        have rest := h.thread
        rw [start.1] at rest
        apply rest.resolve_right fun down => ?_
        rw [down.bound] at start
        cases start.2
      exact ⟨h.oops, remove_guards _ up, fun calling => absurd calling (h.not_calling start.1), h.handler⟩
    · cases hs
  | thread =>
    simp only [Sys.step] at hs
    split at hs
    · cases hs
    · next ops todo =>
      split at hs
      · next off => cases hs; exact h.pop todo fun _ => off
      · cases hs
    · next op ops notFree todo =>
      have other : op = .freeIrq → s.bus.shared.isr = .off := fun e => absurd e notFree
      split at hs
      · cases hs; exact h.pop todo other
      · next c call =>
        split at hs
        · split at hs
          · cases hs; exact h.pop todo other
          · cases hs
        · obtain ⟨g, hg, rfl⟩ := Option.map_eq_some_iff.1 hs
          refine ⟨h.oops, h.thread, fun _ => ⟨op, ops, todo, by rw [call]; rfl⟩, fun runs => h.handler ?_⟩
          rwa [← proc_isr hg]
  | bus a =>
    simp only [Sys.step] at hs
    split at hs
    · next allowed =>
      obtain ⟨g, hg, rfl⟩ := Option.map_eq_some_iff.1 hs
      refine ⟨by rw [h.oops, h.bus careful allowed hg]; rfl, h.thread, h.calling, ?_⟩
      cases a with
      | proc q i =>
        intro runs
        apply h.handler
        rwa [← proc_isr hg]
      | env e =>
        obtain ⟨t, he, rfl⟩ := Monitor.step_env hg
        intro runs
        by_cases enter : e = .enter
        · subst enter; exact allowed
        · exact h.handler (env_isr (env_step he) enter runs)
    · cases hs

/-- **Registers are accessed only while they are mapped**, in every interleaving of
probes, removes, interrupts and user calls that meets `Careful`. -/
theorem registers_guarded {s : Sys P} (h : Reach Sys.step Careful {} s) : s.oops = false := by
  have start : Safe ({} : Sys P) := by
    constructor
    · rfl
    · exact .inr ⟨rfl, rfl, rfl⟩
    · nofun
    · exact fun runs => absurd rfl runs
  have safe : Safe s := h.invariant start fun _ _ _ hi ok hs => hi.step ok hs
  exact safe.oops

end Interleaving

/-- Only the sensor does not answer: its identification times out. -/
def silentSensor : Probe := { goodProbe with bmp280 := { goodProbe.bmp280 with connected := false } }

/-- Statements of the thread inside a call. -/
def inCall (n : Nat) : List (Act Unit) := List.replicate n (.bus (.proc none .go))

/-- The probe of a silent sensor to its end, with an interrupt during the read. -/
def silentProbe : List (Act Unit) :=
  .probe silentSensor :: List.replicate 32 .thread ++ inCall 10 ++
  [.bus (.env (.xrdy 1)), .bus (.env .enter)] ++ List.replicate 8 (.bus (.env .isr)) ++
  inCall 1 ++ [.bus (.proc none .timeout)] ++ inCall 3 ++ List.replicate 8 .thread

theorem silentProbe_guarded : ∃ s : Sys Unit, s.todo = [] ∧ s.bus.log.map Ret.value = [-1] ∧ s.oops = false := by
  obtain ⟨s, run, done, values⟩ := exists_reach Sys.step Careful
    (fun s => s.todo = [] ∧ s.bus.log.map Ret.value = [-1]) ({} : Sys Unit) silentProbe (by decide +kernel)
  exact ⟨s, done, values, registers_guarded run⟩

/-- The device tree has no sensor below the controller: the probe fails after
`request_irq`. -/
def noSensor : Probe := { goodProbe with bmp280 := { goodProbe.bmp280 with child := false } }

/-- The cleanup of that probe up to the `iounmap` of `i2c_ptr`, and an interrupt
before `free_irq`. -/
def lateInterrupt : List (Act Unit) :=
  .probe noSensor :: List.replicate 33 .thread ++ [.bus (.env .enter)]

theorem lateInterrupt_not_guarded : ¬ ∀ s : Sys Unit, Reach Sys.step always {} s → s.oops = false := by
  intro guarded
  obtain ⟨s, run, oops⟩ := exists_reach Sys.step always (fun s => s.oops = true) ({} : Sys Unit)
    lateInterrupt (by decide +kernel)
  rw [guarded s run] at oops
  cases oops

end Beaglebone.Driver
