import Beaglebone.Driver.Probe

/-!
# `cotti_i2c_init` is all or nothing

It should return 0 exactly if every step succeeded, with the register blocks mapped
and the handler registered, and an error otherwise. One `retval` serves the whole
chain of steps: when `prv_reset_i2c` fails nothing sets it, and it still holds the
0 of the last property. The results of `clk_get` and
`devm_platform_ioremap_resource` are compared with NULL, while these functions
return error pointers. With these three failures excluded the function is right
(`init_all_or_nothing_iff`).
-/

namespace Beaglebone.Driver

open Machine I2c Script

/-- What `cotti_i2c_init` returned and left behind; `none` when the thread died. -/
def I2cInit.run (x : I2cInit) (w : World) : Option (Int × World) :=
  (execAll World.exec w (cottiI2cInit x).ops).map fun w' => ((cottiI2cInit x).val, w')

/-- Every step succeeds. -/
def I2cInit.Succeeds (x : I2cInit) : Prop :=
  x.Maps ∧ (prvResetI2c x.syss).1 = 0 ∧ 0 ≤ x.platformIrq ∧ 0 ≤ x.requestIrq

/-- One of the values of SYSS that are polled says that the reset is over. -/
def OutOfReset (syss : Nat → U8) : Prop := ∃ k ≤ 10, prvIsResetting (syss k) = 0

/-- The three pointers are to existing mappings. -/
structure AllLive (w : World) : Prop where
  clk : w.live .clk = true
  controlModule : w.live .controlModule = true
  i2c : w.live .i2c = true

/-- What a successful initialisation leaves behind. -/
structure Ready (x : I2cInit) (w : World) : Prop extends AllLive w where
  irq : w.irq = true
  number : w.gIrq = x.platformIrq

/-- What `cotti_i2c_init` and its caller are for. -/
structure AllOrNothing (x : I2cInit) (w : World) : Prop where
  /-- 0 means that every step succeeded, and the other way round -/
  zero : (∃ w', x.run w = some (0, w')) ↔ x.Succeeds
  ready : ∀ w', x.run w = some (0, w') → Ready x w'
  /-- a failure is reported -/
  fails : ¬ x.Succeeds → ∃ v w', x.run w = some (v, w') ∧ v ≠ 0
  /-- `driver_probe` goes on to `bmp280_init` only with mapped registers -/
  onward : ∀ bmp280 chr, Along World.exec (fun w op => op = .ready true → AllLive w) (fun _ => True) w
    (driverProbe ⟨x, bmp280, chr⟩).ops

theorem reset_zero_iff (syss : Nat → U8) : (prvResetI2c syss).1 = 0 ↔ OutOfReset syss := by
  have busy : ∀ k, (prvIsResetting (syss k) != 0) = false ↔ prvIsResetting (syss k) = 0 := by simp
  unfold prvResetI2c OutOfReset
  rcases poll_cases 10 fun n => prvIsResetting (syss n) != 0 with ⟨k, hk, -, free, he⟩ | ⟨all, he⟩
  · rw [he]
    exact ⟨fun _ => ⟨k, hk, (busy k).1 free⟩, fun _ => rfl⟩
  · rw [he]
    refine ⟨nofun, fun ⟨k, hk, free⟩ => ?_⟩
    rw [← busy, all k hk] at free
    cases free

section Outcomes

variable {x : I2cInit} {w : World} {α β : Type} {m : Code α} {f : α → Code β}
  {P : World → Prop} {Q : β → World → Prop}

/-- `m` from `P` to `Q`, if the thread survives it. -/
abbrev Leads {α : Type} (P : World → Prop) (m : Code α) (Q : α → World → Prop) : Prop :=
  Ensures World.exec (fun _ _ => True) P m Q

/-- `m` runs to its end. -/
abbrev Runs (P : World → Prop) (m : Code α) (Q : α → World → Prop) : Prop := Finishes World.exec P m Q

/-- No thread dies in the operation. -/
def Op.steady : Op → Bool
  | .access _ | .clkGetRate _ | .i2cRead _ | .i2cWrite _ _ | .deviceDestroy => false
  | _ => true

theorem steady_exec {op : Op} (steady : op.steady = true) (w : World) : ∃ w', w.exec op = some w' := by
  cases op with
  | access | clkGetRate | i2cRead | i2cWrite | deviceDestroy => cases steady
  | devmIomap r | classCreate r | deviceCreate r => cases r <;> exact ⟨_, rfl⟩
  | kfree | classDestroy | unregisterChrdev =>
    simp only [World.exec]
    split <;> exact ⟨_, rfl⟩
  | _ => exact ⟨_, rfl⟩

theorem steady_runs (steady : ∀ op ∈ m.ops, op.steady = true) : Runs (fun _ => True) m fun _ _ => True := by
  refine Finishes.of_forall fun w _ op mem => ?_
  obtain ⟨w', he⟩ := steady_exec (steady op mem) w
  exact ⟨w', he, trivial⟩

/-- An error exit returns what it is told to. -/
theorem exit_runs {m : Code Int} (steady : ∀ op ∈ m.ops, op.steady = true) (ne : m.val ≠ 0) :
    Runs (fun _ => True) m fun v _ => v ≠ 0 := by
  intro w _
  obtain ⟨w', run, -⟩ := steady_runs steady w trivial
  exact ⟨w', run, ne⟩

theorem ladder_steady (r : Int) : ∀ op ∈ (i2cPtrError r).ops, op.steady = true := by
  rw [i2cPtrError_ops]
  decide

theorem AllLive.access (p : IoPtr) (n : Nat) : Runs AllLive (access p n) fun _ => AllLive := by
  refine Finishes.of_forall fun w live op mem => ⟨w, ?_, live⟩
  rw [List.eq_of_mem_replicate mem]
  have here : w.live p = true := by
    cases p with
    | i2c => exact live.i2c
    | clk => exact live.clk
    | controlModule => exact live.controlModule
  simp [World.exec, here]

theorem AllLive.reset (syss : Nat → U8) : Runs AllLive (prvReset syss) fun _ => AllLive := by
  unfold prvReset
  refine (AllLive.access _ _).bind ((AllLive.access _ _).bind (Finishes.ite (fun _ => ?_) fun _ => ?_))
  · exact Finishes.pure fun _ => id
  · exact (AllLive.access _ _).bind (Finishes.pure fun _ => id)

theorem prvReset_zero_iff (syss : Nat → U8) : (prvReset syss).val = 0 ↔ (prvResetI2c syss).1 = 0 := by
  unfold prvReset
  simp only [bind_val]
  split
  · next fails => exact ⟨nofun, fun zero => absurd zero fails⟩
  · next zero => exact ⟨fun _ => not_not.1 zero, fun _ => rfl⟩

/-- What `cotti_i2c_init` returns from the pins on, with `retval` still at `r`. -/
def Configured (x : I2cInit) (r v : Int) (w : World) : Prop :=
  if (prvResetI2c x.syss).1 ≠ 0 then v = r
  else if x.platformIrq < 0 ∨ x.requestIrq < 0 then v ≠ 0
  else v = 0 ∧ Ready x w

theorem configure_runs (x : I2cInit) (r : Int) : Runs AllLive (cottiI2cConfigure x r) (Configured x r) := by
  have fail : ∀ v, v ≠ 0 → (prvResetI2c x.syss).1 = 0 → (x.platformIrq < 0 ∨ x.requestIrq < 0) →
      Runs AllLive (i2cPtrError v) (Configured x r) := by
    intro v ne reset irq w _
    obtain ⟨w', run, -⟩ := exit_runs (ladder_steady v) ne w trivial
    refine ⟨w', run, ?_⟩
    rw [Configured, if_neg (not_not.2 reset), if_pos irq]
    exact ne
  have number : Runs AllLive (emit (.setIrq x.platformIrq)) fun _ w => AllLive w ∧ w.gIrq = x.platformIrq :=
    fun w live => ⟨_, rfl, ⟨live.clk, live.controlModule, live.i2c⟩, rfl⟩
  have request : Runs (fun w => AllLive w ∧ w.gIrq = x.platformIrq) (emit .requestIrq) fun _ => Ready x :=
    fun w ⟨live, number⟩ => ⟨_, rfl, ⟨live.clk, live.controlModule, live.i2c⟩, rfl, number⟩
  have put : ∀ r, Runs (Ready x) (emit (.release r)) fun _ => Ready x :=
    fun r w ready => ⟨_, rfl, ⟨ready.clk, ready.controlModule, ready.i2c⟩, ready.irq, ready.number⟩
  unfold cottiI2cConfigure prvWakeup
  refine (AllLive.access _ _).bind ((AllLive.access _ _).bind ((AllLive.reset _).bind ?_))
  refine Finishes.ite (fun fails => ?_) fun reset => ?_
  · intro w _
    obtain ⟨w', run, -⟩ := steady_runs (ladder_steady r) w trivial
    refine ⟨w', run, ?_⟩
    rw [Configured, if_pos fun zero => fails ((prvReset_zero_iff _).2 zero)]
    rfl
  have reset : (prvResetI2c x.syss).1 = 0 := (prvReset_zero_iff _).1 (not_not.1 reset)
  refine (AllLive.access _ _).bind (number.bind ?_)
  refine Finishes.ite (fun neg => ?_) fun irq => ?_
  · exact (fail _ (by omega) reset (.inl neg)).pre fun _ => And.left
  refine Finishes.ite (fun neg => ?_) fun requested => ?_
  · exact (fail _ (by omega) reset (.inr neg)).pre fun _ => And.left
  refine request.bind ((put _).bind ((put _).bind (Finishes.pure fun w ready => ?_)))
  rw [Configured, if_neg (not_not.2 reset), if_neg (by omega)]
  exact ⟨rfl, ready⟩

/-- A thread that goes on with an error pointer dies at its first access to the
controller. -/
theorem configure_dies (x : I2cInit) (retval : Int) {R : Int → World → Prop} :
    Leads (fun w => w.i2cPtr = .err) (cottiI2cConfigure x retval) R := by
  have keep : ∀ p m, Leads (fun w => w.i2cPtr = .err) (access p m) fun _ w => w.i2cPtr = .err := by
    refine fun p m w err => along_of_forall (fun _ _ _ _ => trivial) (fun s s' hs op mem he => ?_) err
    rw [List.eq_of_mem_replicate mem] at he
    simp only [World.exec] at he
    split at he <;> cases he
    exact hs
  have dies : Leads (fun w => w.i2cPtr = .err) (access .i2c 4) fun _ _ => False := by
    refine fun w err => ⟨trivial, fun s hs => ?_⟩
    simp [World.exec, World.live, World.ptr, err] at hs
  unfold cottiI2cConfigure prvWakeup prvReset
  refine Ensures.bind (keep _ _) (Ensures.bind (keep _ _) ?_)
  have never : ∀ m : Code Int, Leads (fun _ => False) m fun _ _ => False := fun _ _ h => h.elim
  exact Ensures.bind (Ensures.bind dies (never _)) fun _ h => h.elim

theorem mapOps_ok (w : World) : ∃ w', execAll World.exec w (mapOps .ok) = some w' ∧ AllLive w' := by
  refine ⟨_, rfl, ?_, ?_, ?_⟩ <;> simp [World.live, World.ptr, World.map, World.setPtr]

theorem init_maps (hx : x.Maps) : Runs (fun _ => True) (cottiI2cInit x) (Configured x 0) := by
  intro w _
  obtain ⟨ops, val⟩ := init_reaches hx.1 (by rw [hx.2]; decide)
  obtain ⟨w₁, mapped, live⟩ := mapOps_ok w
  obtain ⟨w₂, run, configured⟩ := configure_runs x 0 w₁ live
  refine ⟨w₂, ?_, val ▸ configured⟩
  rw [ops, execAll_append, hx.2, mapped]
  exact run

/-- An error pointer to the registers is followed by `prv_reset_i2c`. -/
theorem init_dies_i2c (hx : x.Reaches) (err : x.i2cPtr = .err) : Dies World.exec (fun _ => True) (cottiI2cInit x) := by
  intro w _
  obtain ⟨ops, -⟩ := init_reaches hx (by rw [err]; decide)
  have mapped : ∃ w', execAll World.exec w (mapOps .err) = some w' ∧ w'.i2cPtr = .err := ⟨_, rfl, rfl⟩
  obtain ⟨w', run, ptr⟩ := mapped
  rw [ops, execAll_append, err, run]
  exact Dies.of_ensures (configure_dies x 0) w' ptr

/-- An error pointer to the clock is followed by `clk_get_rate`. -/
theorem init_dies_clk (hx : x.AsksClk) (err : x.fclk = .err) : Dies World.exec (fun _ => True) (cottiI2cInit x) := by
  obtain ⟨parent, properties, read, clkNode, pinmuxNode⟩ := hx
  unfold cottiI2cInit
  simp only [parent, properties, read, clkNode, pinmuxNode, err, Bool.not_true, Bool.false_eq_true, if_false,
    ne_eq, not_true, reduceCtorEq]
  exact fun _ _ => rfl

/-- The exits before the mapping return an error. -/
theorem init_exits_runs (early : ¬ x.Maps) (clk : x.AsksClk → x.fclk ≠ .err) (i2c : x.Reaches → x.i2cPtr ≠ .err) :
    Runs (fun _ => True) (cottiI2cInit x) fun v _ => v ≠ 0 := by
  have steady : ∀ {op : Op} {f : Unit → Code Int}, op.steady = true →
      Runs (fun _ => True) (f ()) (fun v _ => v ≠ 0) → Runs (fun _ => True) (emit op >>= f) fun v _ => v ≠ 0 := by
    intro op f h k
    have one : ∀ o ∈ (emit op).ops, o.steady = true := by simpa using h
    exact (steady_runs one).bind k
  have noNode : ∀ r : Int, r ≠ 0 → Runs (fun _ => True) (pdevError r) fun v _ => v ≠ 0 := by
    intro r ne
    refine exit_runs ?_ ne
    rw [pdevError_ops]
    decide
  have noPins : Runs (fun _ => True) (clkNodeError (-1)) fun v _ => v ≠ 0 := exit_runs (by decide) (by decide)
  have noClk : Runs (fun _ => True) (pinmuxNodeError (-1)) fun v _ => v ≠ 0 :=
    exit_runs (by decide) (by decide)
  have noModule : Runs (fun _ => True) (clkPtrError (-1)) fun v _ => v ≠ 0 := exit_runs (by decide) (by decide)
  have noI2c : Runs (fun _ => True) (controlModulePtrError (-1)) fun v _ => v ≠ 0 :=
    exit_runs (by decide) (by decide)
  unfold cottiI2cInit
  refine Finishes.ite (fun _ => noNode _ (by decide)) fun parent => ?_
  refine Finishes.ite (fun _ => noNode _ (by decide)) fun properties => ?_
  refine Finishes.ite (noNode _) fun read => ?_
  refine Finishes.ite (fun _ => noNode _ (by decide)) fun clkNode => ?_
  refine steady rfl ?_
  refine Finishes.ite (fun _ => noPins) fun pinmuxNode => ?_
  refine steady rfl ?_
  refine Finishes.ite (fun _ => noClk) fun present => ?_
  have asks := asksClk_of parent properties read clkNode pinmuxNode
  have fclk := ErrPtr.ok_of present (clk asks)
  have rate : Runs (fun _ => True) (clkRate x.fclk) fun _ _ => True := by
    rw [fclk]
    exact fun _ _ => ⟨_, rfl, trivial⟩
  refine rate.bind (steady rfl ?_)
  refine Finishes.ite (fun _ => noClk) fun clkPtr => ?_
  refine steady rfl ?_
  refine Finishes.ite (fun _ => noModule) fun controlModulePtr => ?_
  refine steady rfl ?_
  refine Finishes.ite (fun _ => noI2c) fun mapped => ?_
  -- the mapping would have been made
  have reaches := asks.reaches fclk (by simpa using clkPtr) (by simpa using controlModulePtr)
  exact absurd ⟨reaches, ErrPtr.ok_of mapped (i2c reaches)⟩ early

/-! `driver_probe` -/

/-- `driver_probe` does not go on in this operation. -/
def Op.stays : Op → Bool
  | .ready true => false
  | _ => true

theorem stays_of_plain {ops : List Op} (plain : ∀ op ∈ ops, op.plain = true) : ∀ op ∈ ops, op.stays = true := by
  intro op mem
  have plain := plain op mem
  cases op with
  | ready => cases plain
  | _ => rfl

theorem configure_stays (x : I2cInit) (r : Int) : ∀ op ∈ (cottiI2cConfigure x r).ops, op.stays = true := by
  have ladder : ∀ r : Int, ∀ op ∈ (i2cPtrError r).ops, op.stays = true := by
    intro r
    rw [i2cPtrError_ops]
    decide
  have accesses : ∀ p n, ∀ op ∈ (access p n).ops, op.stays = true := fun p n => stays_of_plain (access_plain p n)
  unfold cottiI2cConfigure prvWakeup
  refine all_bind (accesses _ _) (all_bind (accesses _ _) (all_bind (stays_of_plain (prvReset_plain _)) ?_))
  refine all_ite (ladder _) (all_bind (accesses _ _) (all_bind (by simp [Op.stays]) ?_))
  exact all_ite (ladder _) (all_ite (ladder _) (by decide))

theorem init_stays (x : I2cInit) : ∀ op ∈ (cottiI2cInit x).ops, op.stays = true := by
  have noNode : ∀ r : Int, ∀ op ∈ (pdevError r).ops, op.stays = true := by
    intro r
    rw [pdevError_ops]
    decide
  have steady : ∀ {op : Op} {f : Unit → Code Int}, op.stays = true →
      (∀ o ∈ (f ()).ops, o.stays = true) → ∀ o ∈ (emit op >>= f).ops, o.stays = true :=
    fun h k => all_bind (by simpa using h) k
  unfold cottiI2cInit
  refine all_ite (noNode _) (all_ite (noNode _) (all_ite (noNode _) (all_ite (noNode _) ?_)))
  refine steady rfl (all_ite (by decide) (steady rfl (all_ite (by decide) ?_)))
  refine all_bind (by cases x.fclk <;> decide) (steady rfl (all_ite (by decide) ?_))
  refine steady rfl (all_ite (by decide) (steady rfl (all_ite (by decide) ?_)))
  exact configure_stays x _

/-- After `cotti_i2c_init` has returned 0, `driver_probe` goes on once. -/
theorem onward_stays (p : Probe) : ∀ op ∈ ((do
    let retval ← bmp280Init p.bmp280
    if retval ≠ 0 then i2cError retval else do
    let retval ← charDeviceCreate p.chr
    if retval ≠ 0 then bmp280Error retval else do
    pure 0 : Code Int)).ops, op.stays = true := by
  have i2c : ∀ r : Int, ∀ op ∈ (i2cError r).ops, op.stays = true := by
    intro r
    show ∀ op ∈ cottiI2cDeinit.ops ++ [], op.stays = true
    decide
  have bmp280 : ∀ r : Int, ∀ op ∈ (bmp280Error r).ops, op.stays = true := by
    intro r
    show ∀ op ∈ bmp280Deinit.ops ++ (cottiI2cDeinit.ops ++ []), op.stays = true
    decide
  refine all_bind (stays_of_plain (bmp280Init_plain _)) (all_ite (i2c _) ?_)
  exact all_bind (stays_of_plain (charDeviceCreate_plain _)) (all_ite (bmp280 _) (by simp))

theorem onward_of_init (p : Probe) (ready : (cottiI2cInit p.i2c).val = 0 →
      ∀ w', execAll World.exec w (cottiI2cInit p.i2c).ops = some w' → AllLive w') :
    Along World.exec (fun w op => op = .ready true → AllLive w) (fun _ => True) w (driverProbe p).ops := by
  have quiet : ∀ {op : Op}, op.stays = true → ∀ w : World, op = .ready true → AllLive w := by
    rintro op stays w rfl
    cases stays
  unfold driverProbe
  rw [bind_ops]
  refine Along.append (along_of_final (fun s op mem => quiet (init_stays _ op mem) s) fun w' run => ?_)
  split
  · exact trivial
  next zero =>
  refine ⟨fun _ => ready (not_not.1 zero) w' run, fun s _ => ?_⟩
  exact along_of_forall (fun s _ op mem => quiet (onward_stays p op mem) s) (fun _ _ _ _ _ _ => trivial) trivial

/-! The whole function -/

/-- Without the three failures, `cotti_i2c_init` returns and tells the truth. -/
theorem init_runs (clk : x.AsksClk → x.fclk ≠ .err) (i2c : x.Reaches → x.i2cPtr ≠ .err)
    (reset : x.Maps → OutOfReset x.syss) :
    Runs (fun _ => True) (cottiI2cInit x) fun v w => (x.Succeeds ∧ v = 0 ∧ Ready x w) ∨ (¬ x.Succeeds ∧ v ≠ 0) := by
  intro w _
  by_cases hx : x.Maps
  · obtain ⟨w', run, result⟩ := init_maps hx w trivial
    have zero := (reset_zero_iff x.syss).2 (reset hx)
    refine ⟨w', run, ?_⟩
    rw [Configured, if_neg (not_not.2 zero)] at result
    split at result
    · next neg =>
      right
      refine ⟨?_, result⟩
      rintro ⟨-, -, irq, requested⟩
      omega
    · next pos => exact .inl ⟨⟨hx, zero, by omega, by omega⟩, result⟩
  · obtain ⟨w', run, ne⟩ := init_exits_runs hx clk i2c w trivial
    exact ⟨w', run, .inr ⟨fun all => hx all.1, ne⟩⟩

theorem run_eq {w' : World} (run : execAll World.exec w (cottiI2cInit x).ops = some w') :
    x.run w = some ((cottiI2cInit x).val, w') := by
  rw [I2cInit.run, run]
  rfl

theorem run_none (dies : Dies World.exec (fun _ => True) (cottiI2cInit x)) : x.run w = none := by
  rw [I2cInit.run, dies w trivial]
  rfl

theorem allOrNothing_of (clk : x.AsksClk → x.fclk ≠ .err) (i2c : x.Reaches → x.i2cPtr ≠ .err)
    (reset : x.Maps → OutOfReset x.syss) : AllOrNothing x w := by
  obtain ⟨w', run, outcome⟩ := init_runs clk i2c reset w trivial
  have ran := run_eq run
  have ends : ∀ {v w''}, x.run w = some (v, w'') → v = (cottiI2cInit x).val ∧ w'' = w' := by
    intro v w'' h
    rw [ran, Option.some.injEq, Prod.mk.injEq] at h
    exact ⟨h.1.symm, h.2.symm⟩
  rcases outcome with ⟨all, zero, ready⟩ | ⟨not, ne⟩
  · constructor
    · exact ⟨fun _ => all, fun _ => ⟨w', zero ▸ ran⟩⟩
    · exact fun w'' h => (ends h).2 ▸ ready
    · exact fun not => absurd all not
    · refine fun _ _ => onward_of_init _ fun _ w'' h => ?_
      exact (ends (run_eq h)).2 ▸ ready.toAllLive
  · constructor
    · exact ⟨fun ⟨_, h⟩ => absurd (ends h).1.symm ne, fun all => absurd all not⟩
    · exact fun w'' h => absurd (ends h).1.symm ne
    · exact fun _ => ⟨_, w', ran, ne⟩
    · exact fun _ _ => onward_of_init _ fun zero => absurd zero ne

end Outcomes

/-- **All or nothing.** `cotti_i2c_init` does what it is for exactly if neither
`clk_get` nor `devm_platform_ioremap_resource` returns an error pointer and the
controller comes out of reset within the polls. -/
theorem init_all_or_nothing_iff (x : I2cInit) (w : World) : AllOrNothing x w ↔
    (x.AsksClk → x.fclk ≠ .err) ∧ (x.Reaches → x.i2cPtr ≠ .err) ∧ (x.Maps → OutOfReset x.syss) := by
  refine ⟨fun h => ⟨fun asks err => ?_, fun reaches err => ?_, fun maps => ?_⟩,
    fun ⟨clk, i2c, reset⟩ => allOrNothing_of clk i2c reset⟩
  · obtain ⟨v, w', run, -⟩ := h.fails fun all => by have ok := all.1.1.2.2.2.2.2.1; rw [err] at ok; cases ok
    rw [run_none (init_dies_clk asks err)] at run
    cases run
  · obtain ⟨v, w', run, -⟩ := h.fails fun all => by have ok := all.1.2; rw [err] at ok; cases ok
    rw [run_none (init_dies_i2c reaches err)] at run
    cases run
  · rw [← reset_zero_iff]
    by_contra fails
    obtain ⟨w₁, run₁, result⟩ := init_maps maps w trivial
    rw [Configured, if_pos fails] at result
    obtain ⟨v, w', run, ne⟩ := h.fails fun all => fails all.2.1
    rw [run_eq run₁, Option.some.injEq, Prod.mk.injEq] at run
    exact ne (run.1.symm.trans result)

/-- The controller stays in reset, everything else works. -/
def stuckReset : I2cInit := { goodProbe.i2c with syss := fun _ => 0 }

/-- `cotti_i2c_init` returns 0 with its pointers NULL and no handler registered. -/
theorem stuckReset_not_reported : ¬ ∀ x w, AllOrNothing x w := by
  intro all
  have zero : ∀ r ∈ stuckReset.run {}, r.1 = 0 ∧ r.2.i2cPtr = .null := by decide +kernel
  have returns : (stuckReset.run {}).isSome = true := by decide +kernel
  obtain ⟨⟨v, w'⟩, run⟩ := Option.isSome_iff_exists.1 returns
  obtain ⟨rfl, null⟩ : v = 0 ∧ w'.i2cPtr = .null := zero _ run
  have live := ((all stuckReset {}).ready w' run).i2c
  simp [World.live, World.ptr, null] at live

end Beaglebone.Driver
