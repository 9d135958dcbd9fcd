import Beaglebone.Driver.Init

/-!
# Balance of resources

A lifecycle is a probe that fails, or a probe that returns 0 and the remove that
follows it. Every resource it acquires should be released exactly once when it has
finished; a lifecycle in which a thread dies never finishes, and what the thread held
stays held. The mapping behind `i2c_ptr` belongs to devm, which releases it after
the error paths and `cotti_i2c_deinit` have called `iounmap` on it: whenever
`devm_platform_ioremap_resource` succeeds, a lifecycle that finishes releases the
mapping twice (`Account`). The error exits before it are balanced, unless the code
follows an error pointer on its way to them (`resources_balanced_iff`).
-/

namespace Beaglebone.Driver

open Machine I2c Script

/-- Every resource is released as often as it is acquired. -/
def Balanced (log : List Event) : Prop := ∀ r, log.count (.release r) = log.count (.acquire r)

/-- The operations of one lifecycle. -/
def lifecycleOps (x : Probe) : List Op :=
  (probe x).ops ++ if (driverProbe x).val = 0 then remove.ops else []

/-- One lifecycle; `none` when a thread dies in it. -/
def lifecycle (w : World) (x : Probe) : Option World :=
  execAll World.exec { w with log := [] } (lifecycleOps x)

/-- Every lifecycle of a sequence finishes with a balanced ledger. -/
def AllBalanced : World → List Probe → Prop
  | _, [] => True
  | w, x :: xs => ∃ w', lifecycle w x = some w' ∧ Balanced w'.log ∧ AllBalanced w' xs

/-- `cotti_i2c_init` takes one of its error exits before the registers are mapped, and
gets no error pointer before. (`prv_reset_i2c` is called behind the mapping only.) -/
structure I2cInit.ExitsEarly (x : I2cInit) : Prop where
  early : ¬ x.Maps
  clk : x.AsksClk → x.fclk ≠ .err
  i2c : x.Reaches → x.i2cPtr ≠ .err

/-- Nobody but devm and `iounmap(i2c_ptr)` releases the mapping behind `i2c_ptr`. -/
def Op.spares : Op → Bool
  | .iomap _ _ | .devmIomap _ | .iounmap .i2c | .iounmapNonNull .i2c | .setNull .i2c | .devmRelease
  | .acquire (.mapping _) | .release (.mapping _) => false
  | _ => true

/-- The managed mapping `n` has been released `k` times. -/
structure Account (n k : Nat) (w : World) : Prop where
  managed : w.managed = [n]
  acquired : w.log.count (.acquire (.mapping n)) = 1
  released : w.log.count (.release (.mapping n)) = k
  clk : w.clkPtr ≠ .at n
  controlModule : w.controlModulePtr ≠ .at n

/-- The mapping has been released once, or `i2c_ptr` will release it. -/
def Owed (n : Nat) (w : World) : Prop :=
  (Account n 0 w ∧ w.i2cPtr = .at n) ∨ (Account n 1 w ∧ w.i2cPtr = .null)

section Mapping

variable {w w' : World} {op : Op} {ops : List Op} {n k : Nat} {v : Ptr}

/-- Releasing another pointer's mapping. -/
theorem Account.unmap (h : Account n k w) (ne : v ≠ .at n) :
    Account n k (w.unmap v) ∧ (w.unmap v).i2cPtr = w.i2cPtr := by
  cases v with
  | null | err => exact ⟨h, rfl⟩
  | «at» m =>
    have other : m ≠ n := fun e => ne (congrArg Ptr.at e)
    refine ⟨⟨h.managed, ?_, ?_, h.clk, h.controlModule⟩, rfl⟩
    · simpa [World.unmap] using h.acquired
    · simpa [World.unmap, other] using h.released

theorem Account.exec (h : Account n k w) (spares : op.spares = true) (he : w.exec op = some w') :
    Account n k w' ∧ w'.i2cPtr = w.i2cPtr := by
  obtain ⟨managed, acquired, released, clk, controlModule⟩ := h
  cases op with
  | iomap | devmIomap | devmRelease => cases spares
  | iounmap p =>
    cases he
    cases p with
    | i2c => cases spares
    | clk => exact Account.unmap ⟨managed, acquired, released, clk, controlModule⟩ clk
    | controlModule => exact Account.unmap ⟨managed, acquired, released, clk, controlModule⟩ controlModule
  | iounmapNonNull p =>
    cases he
    cases p with
    | i2c => cases spares
    | clk =>
      split
      · exact ⟨⟨managed, acquired, released, clk, controlModule⟩, rfl⟩
      · exact Account.unmap ⟨managed, acquired, released, clk, controlModule⟩ clk
    | controlModule =>
      split
      · exact ⟨⟨managed, acquired, released, clk, controlModule⟩, rfl⟩
      · exact Account.unmap ⟨managed, acquired, released, clk, controlModule⟩ controlModule
  | setNull p =>
    cases he
    cases p with
    | i2c => cases spares
    | clk => exact ⟨⟨managed, acquired, released, by simp [World.setPtr], controlModule⟩, rfl⟩
    | controlModule => exact ⟨⟨managed, acquired, released, clk, by simp [World.setPtr]⟩, rfl⟩
  | acquire r | release r =>
    cases he
    cases r with
    | mapping => cases spares
    | _ => exact ⟨⟨managed, by simpa using acquired, by simpa using released, clk, controlModule⟩, rfl⟩
  | access | i2cRead | i2cWrite =>
    simp only [World.exec] at he
    split at he <;> cases he
    exact ⟨⟨managed, acquired, released, clk, controlModule⟩, rfl⟩
  | kmalloc ok =>
    cases ok <;> cases he <;>
      exact ⟨⟨managed, by simpa using acquired, by simpa using released, clk, controlModule⟩, rfl⟩
  | kfree | classDestroy | unregisterChrdev =>
    simp only [World.exec] at he
    split at he <;> cases he <;>
      exact ⟨⟨managed, by simpa using acquired, by simpa using released, clk, controlModule⟩, rfl⟩
  | deviceDestroy =>
    simp only [World.exec] at he
    split at he <;> cases he
    · split <;> exact ⟨⟨managed, by simpa using acquired, by simpa using released, clk, controlModule⟩, rfl⟩
    · exact ⟨⟨managed, acquired, released, clk, controlModule⟩, rfl⟩
  | clkGetRate r | classCreate r | deviceCreate r =>
    cases r <;> cases he <;>
      exact ⟨⟨managed, by simpa using acquired, by simpa using released, clk, controlModule⟩, rfl⟩
  | _ =>
    cases he
    exact ⟨⟨managed, by simpa using acquired, by simpa using released, clk, controlModule⟩, rfl⟩

/-- What holds after the operations, if the thread survives them. -/
abbrev After (w : World) (ops : List Op) (Q : World → Prop) : Prop :=
  Along World.exec (fun _ _ => True) Q w ops

theorem Account.after (h : Account n k w) (hv : w.i2cPtr = v) (spares : ∀ op ∈ ops, op.spares = true) :
    After w ops fun w' => Account n k w' ∧ w'.i2cPtr = v := by
  refine along_of_forall (fun _ _ _ _ => trivial) (fun s s' hs op mem he => ?_) ⟨h, hv⟩
  obtain ⟨account, same⟩ := hs.1.exec (spares op mem) he
  exact ⟨account, same.trans hs.2⟩

theorem Owed.after (h : Owed n w) (spares : ∀ op ∈ ops, op.spares = true) : After w ops (Owed n) := by
  rcases h with ⟨account, ptr⟩ | ⟨account, ptr⟩
  · exact (account.after ptr spares).imp fun _ => .inl
  · exact (account.after ptr spares).imp fun _ => .inr

/-- `iounmap(i2c_ptr)` while it points to the mapping. -/
theorem Account.iounmap (h : Account n 0 w) (hv : w.i2cPtr = .at n) :
    Account n 1 (w.unmap w.i2cPtr) ∧ (w.unmap w.i2cPtr).i2cPtr = .at n := by
  rw [hv]
  exact ⟨⟨h.managed, by simpa [World.unmap] using h.acquired,
    by simpa [World.unmap] using h.released, h.clk, h.controlModule⟩, hv⟩

theorem spares_of_plain (plain : ∀ op ∈ ops, op.plain = true) : ∀ op ∈ ops, op.spares = true := by
  intro op mem
  have plain := plain op mem
  cases op with
  | iomap | devmIomap | iounmap | iounmapNonNull | setNull | devmRelease => cases plain
  | acquire r | release r =>
    cases r with
    | mapping => cases plain
    | _ => rfl
  | _ => rfl

/-- `i2c_ptr` points to the mapping, which has not been released. -/
def Mapped (n : Nat) (w : World) : Prop := Account n 0 w ∧ w.i2cPtr = .at n

variable {α β : Type} {m : Code α} {f : α → Code β} {Q : β → World → Prop}

theorem Mapped.then (spares : ∀ op ∈ m.ops, op.spares = true) (h : Leads (Mapped n) (f m.val) Q) :
    Leads (Mapped n) (m >>= f) Q :=
  have skip : Leads (Mapped n) m fun _ => Mapped n := fun _ hw => hw.1.after hw.2 spares
  Ensures.bind skip h

theorem Owed.then (spares : ∀ op ∈ m.ops, op.spares = true) (h : Leads (Owed n) (f m.val) Q) :
    Leads (Owed n) (m >>= f) Q :=
  have skip : Leads (Owed n) m fun _ => Owed n := fun _ hw => hw.after spares
  Ensures.bind skip h

/-- The error ladder of `cotti_i2c_init` releases the mapping once. -/
theorem i2cPtrError_leads (retval : Int) :
    Leads (Mapped n) (i2cPtrError retval) fun _ w' => Account n 1 w' ∧ w'.i2cPtr = .null := by
  rintro w ⟨account, ptr⟩
  obtain ⟨account, ptr⟩ := account.iounmap ptr
  refine Along.cons trivial rfl ?_
  show After _ (([.iounmap .controlModule, .iounmap .clk, .release .pinmuxNode, .release .clkNode] : List Op) ++
    [.setNull .i2c, .setNull .clk, .setNull .controlModule]) _
  refine ((account.after ptr (by decide)).imp fun w' ⟨account, _⟩ => ?_).append
  refine Along.cons trivial rfl ?_
  exact Account.after ⟨account.managed, account.acquired, account.released, account.clk,
    account.controlModule⟩ rfl (by decide)

/-- After the mapping, `cotti_i2c_init` either fails and has released it once, or
returns 0. -/
theorem configure_leads (x : I2cInit) (retval : Int) :
    Leads (Mapped n) (cottiI2cConfigure x retval) fun v w' => Owed n w' ∧ (v ≠ 0 → Account n 1 w') := by
  have ladder : ∀ r, Leads (Mapped n) (i2cPtrError r) fun v w' => Owed n w' ∧ (v ≠ 0 → Account n 1 w') :=
    fun r => (i2cPtrError_leads r).conseq (fun _ => id) fun w' h => ⟨.inr h, fun _ => h.1⟩
  unfold cottiI2cConfigure prvWakeup
  have accesses : ∀ p m, ∀ op ∈ (access p m).ops, op.spares = true := fun p m =>
    spares_of_plain (access_plain p m)
  refine Mapped.then (accesses _ _) (Mapped.then (accesses _ _) ?_)
  refine Mapped.then (spares_of_plain (prvReset_plain _)) ?_
  split
  · exact ladder _
  refine Mapped.then (accesses _ _) (Mapped.then (by simp [Op.spares]) ?_)
  split
  · exact ladder _
  split
  · exact ladder _
  refine Mapped.then (by decide) (Mapped.then (by decide) (Mapped.then (by decide) ?_))
  exact Ensures.pure fun w' h => ⟨.inl h, fun ne => absurd rfl ne⟩

/-- Up to the mapping. -/
theorem init_leads {x : I2cInit} (hx : x.Maps) :
    Leads (fun w => w.managed = [] ∧ w.log = [] ∧ w.next + 2 = n) (cottiI2cInit x) fun v w' =>
      Owed n w' ∧ (v ≠ 0 → Account n 1 w') := by
  obtain ⟨ops, val⟩ := init_reaches hx.1 (by rw [hx.2]; decide)
  rintro w ⟨managed, log, rfl⟩
  rw [hx.2] at ops
  show After w (cottiI2cInit x).ops _
  rw [ops, val]
  refine Along.append ?_
  iterate 8 refine Along.cons trivial rfl ?_
  refine configure_leads x 0 _ ⟨⟨?_, ?_, ?_, ?_, ?_⟩, rfl⟩ <;> simp [World.map, World.setPtr, managed, log]

/-- `cotti_i2c_deinit` releases it if nobody has. -/
theorem deinit_leads : Leads (Owed n) cottiI2cDeinit fun _ => Account n 1 := by
  intro w owed
  show After w (([.ready false, .iounmapNonNull .clk, .iounmapNonNull .controlModule] : List Op) ++
    [.iounmapNonNull .i2c, .freeIrq]) _
  refine ((owed.after (by decide)).imp fun w' owed => ?_).append
  refine ⟨trivial, fun s hs => ?_⟩
  cases hs
  have once : Account n 1 (if w'.i2cPtr = .null then w' else w'.unmap w'.i2cPtr) := by
    rcases owed with ⟨account, ptr⟩ | ⟨account, ptr⟩
    · rw [if_neg (by rw [ptr]; simp)]
      exact (account.iounmap ptr).1
    · rw [if_pos ptr]
      exact account
  show After _ [.freeIrq] _
  exact (once.after rfl (by decide)).imp fun _ => And.left

/-- A probe that has mapped the registers has released the mapping once if it
fails. -/
theorem driverProbe_leads {x : Probe} (hx : x.i2c.Maps) :
    Leads (fun w => w.managed = [] ∧ w.log = [] ∧ w.next + 2 = n) (driverProbe x) fun v w' =>
      (v = 0 → Owed n w') ∧ (v ≠ 0 → Account n 1 w') := by
  have fail : ∀ r, r ≠ 0 → Leads (Owed n) (i2cError r) fun v w' =>
      (v = 0 → Owed n w') ∧ (v ≠ 0 → Account n 1 w') := fun r ne =>
    Ensures.bind deinit_leads (Ensures.pure fun w' h => ⟨fun e => absurd e ne, fun _ => h⟩)
  unfold driverProbe
  refine Ensures.bind (init_leads hx) ?_
  split
  · next ne => exact Ensures.pure fun w' h => ⟨fun e => absurd e ne, h.2⟩
  refine Ensures.pre ?_ fun _ h => h.1
  refine Owed.then (by decide) (Owed.then (spares_of_plain (bmp280Init_plain _)) ?_)
  split
  · next ne => exact fail _ ne
  refine Owed.then (spares_of_plain (charDeviceCreate_plain _)) ?_
  split
  · next ne => exact Owed.then (by decide) (fail _ ne)
  exact Ensures.pure fun w' h => ⟨fun _ => h, fun ne => absurd rfl ne⟩

/-- The mapping has been released twice. -/
def Doubled (n : Nat) (w : World) : Prop :=
  w.managed = [] ∧ w.log.count (.acquire (.mapping n)) = 1 ∧ w.log.count (.release (.mapping n)) = 2

/-- The driver core's release of a mapping that has been released. -/
theorem Account.devmRelease (h : Account n 1 w) : After w [.devmRelease] (Doubled n) := by
  refine Along.cons trivial rfl ⟨rfl, ?_, ?_⟩
  · simpa [h.managed] using h.acquired
  · simp [h.managed, h.released]

theorem remove_leads : Leads (Owed n) remove fun _ => Doubled n := by
  have removed : Leads (Owed n) driverRemove fun _ => Account n 1 :=
    Owed.then (by decide) (Owed.then (by decide) deinit_leads)
  have unbound : ∀ w, Doubled n w → After w [.bound false] (Doubled n) := fun w h => Along.cons trivial rfl h
  refine Ensures.bind removed fun w account => ?_
  show After w (([.devmRelease] : List Op) ++ [.bound false]) _
  exact (account.devmRelease.imp unbound).append

/-- Whenever the registers are mapped, the lifecycle releases the mapping twice. -/
theorem lifecycle_maps {x : Probe} (hx : x.i2c.Maps) (managed : w.managed = []) (h : lifecycle w x = some w') :
    Doubled (w.next + 2) w' := by
  have probed := driverProbe_leads hx { w with log := [] } ⟨managed, rfl, rfl⟩
  have all : After { w with log := [] } (lifecycleOps x) (Doubled (w.next + 2)) := by
    unfold lifecycleOps probe
    rw [bind_ops, List.append_assoc]
    refine (probed.imp fun s hs => ?_).append
    by_cases ret : (driverProbe x).val = 0
    · rw [if_pos ret, if_pos ret]
      refine Along.append (Along.cons trivial rfl ?_)
      have owed := hs.1 ret
      refine remove_leads _ (owed.imp (fun h => ⟨⟨h.1.managed, h.1.acquired, h.1.released, h.1.clk,
        h.1.controlModule⟩, h.2⟩) fun h => ⟨⟨h.1.managed, h.1.acquired, h.1.released, h.1.clk,
        h.1.controlModule⟩, h.2⟩)
    · rw [if_neg ret, if_neg ret]
      exact (hs.2 ret).devmRelease
  exact all.final h

end Mapping

/-! The exits before the mapping -/

section Exits

/-- The ledger is balanced once `rs` are released. -/
def Opened (rs : List Resource) (w : World) : Prop :=
  w.managed = [] ∧ Balanced (w.log ++ rs.map .release)

variable {rs : List Resource} {r : Resource} {n m : Nat}

theorem balanced_acquire {t : List Event} (h : Balanced (t ++ rs.map Event.release)) :
    Balanced (t ++ [.acquire r] ++ (r :: rs).map .release) := fun q => by
  have old := h q
  simp only [List.count_append, List.map_cons, List.count_cons, List.count_nil] at old ⊢
  by_cases same : r = q
  · subst same; simp; omega
  · simp [same]; omega

theorem balanced_release {t : List Event} (h : Balanced (t ++ (r :: rs).map Event.release)) :
    Balanced (t ++ [.release r] ++ rs.map Event.release) := by
  simpa using h

theorem acquire_leads : Leads (Opened rs) (emit (.acquire r)) fun _ => Opened (r :: rs) :=
  fun _ h => Along.cons trivial rfl ⟨h.1, balanced_acquire h.2⟩

theorem release_leads : Leads (Opened (r :: rs)) (emit (.release r)) fun _ => Opened rs :=
  fun _ h => Along.cons trivial rfl ⟨h.1, balanced_release h.2⟩

/-- The exit `m` fails with a balanced ledger. -/
abbrev Exits (P : World → Prop) (m : Code Int) : Prop := Leads P m fun v w => v ≠ 0 ∧ Opened [] w

theorem pdevError_exits {retval : Int} (ne : retval ≠ 0) : Exits (Opened []) (pdevError retval) := by
  rintro w ⟨managed, balanced⟩
  iterate 3 refine Along.cons trivial rfl ?_
  exact ⟨ne, managed, balanced⟩

theorem clkNodeError_exits {retval : Int} (ne : retval ≠ 0) :
    Exits (Opened [.clkNode]) (clkNodeError retval) :=
  Ensures.bind release_leads (pdevError_exits ne)

theorem pinmuxNodeError_exits {retval : Int} (ne : retval ≠ 0) :
    Exits (Opened [.pinmuxNode, .clkNode]) (pinmuxNodeError retval) :=
  Ensures.bind release_leads (clkNodeError_exits ne)

/-- `clk_ptr` is the last mapping made. -/
def ClkMapped (w : World) : Prop :=
  ∃ n, w.clkPtr = .at n ∧ Opened [.mapping n, .pinmuxNode, .clkNode] w

theorem clkPtrError_exits {retval : Int} (ne : retval ≠ 0) : Exits ClkMapped (clkPtrError retval) := by
  refine Ensures.bind (R := fun _ => Opened [.pinmuxNode, .clkNode]) ?_ (pinmuxNodeError_exits ne)
  rintro w ⟨n, ptr, managed, balanced⟩
  refine Along.cons trivial rfl ?_
  simp only [World.ptr, ptr, World.unmap]
  exact ⟨managed, balanced_release balanced⟩

/-- `control_module_ptr` is the last mapping made, after `clk_ptr`. -/
def ControlModuleMapped (w : World) : Prop :=
  ∃ m n, w.controlModulePtr = .at m ∧ w.clkPtr = .at n ∧
    Opened [.mapping m, .mapping n, .pinmuxNode, .clkNode] w

theorem controlModulePtrError_exits {retval : Int} (ne : retval ≠ 0) :
    Exits ControlModuleMapped (controlModulePtrError retval) := by
  refine Ensures.bind (R := fun _ => ClkMapped) ?_ (clkPtrError_exits ne)
  rintro w ⟨m, n, ptr, clk, managed, balanced⟩
  refine Along.cons trivial rfl ?_
  simp only [World.ptr, ptr, World.unmap]
  exact ⟨n, clk, managed, balanced_release balanced⟩

/-- A thread that follows an error pointer into the clock framework dies there. -/
theorem clkRate_leads (r : ErrPtr) : Leads (Opened rs) (clkRate r) fun _ w => r ≠ .err ∧ Opened rs w := by
  have rate : ∀ rs, Leads (Opened rs) (emit (.clkGetRate .ok)) fun _ => Opened rs :=
    fun _ _ h => Along.cons trivial rfl h
  cases r with
  | ok =>
    refine Ensures.bind acquire_leads (Ensures.bind (rate _) ?_)
    exact release_leads.conseq (fun _ => id) fun _ h => ⟨by decide, h⟩
  | null => exact fun _ h => Along.cons trivial rfl ⟨by decide, h⟩
  | err =>
    intro w _
    exact ⟨trivial, fun w' he => by cases he⟩

/-- **The exits before the mapping** release what they have acquired, in reverse
order. -/
theorem init_exits {x : I2cInit} (hx : ¬ x.Maps) : Exits (Opened []) (cottiI2cInit x) := by
  have clkFailed : Leads (Opened [.pinmuxNode, .clkNode]) (emit (.iomap .clk false)) fun _ =>
      Opened [.pinmuxNode, .clkNode] := fun w h => Along.cons trivial rfl h
  have clkMapped : Leads (Opened [.pinmuxNode, .clkNode]) (emit (.iomap .clk true)) fun _ => ClkMapped :=
    fun w h => Along.cons trivial rfl ⟨w.next, rfl, h.1, balanced_acquire h.2⟩
  have moduleFailed : Leads ClkMapped (emit (.iomap .controlModule false)) fun _ => ClkMapped :=
    fun w h => Along.cons trivial rfl h
  have moduleMapped : Leads ClkMapped (emit (.iomap .controlModule true)) fun _ => ControlModuleMapped :=
    fun w ⟨n, clk, h⟩ => Along.cons trivial rfl ⟨w.next, n, rfl, clk, h.1, balanced_acquire h.2⟩
  have i2cFailed : Leads ControlModuleMapped (emit (.devmIomap .null)) fun _ => ControlModuleMapped :=
    fun w h => Along.cons trivial rfl h
  have i2cError : Leads ControlModuleMapped (emit (.devmIomap .err)) fun _ w => w.i2cPtr = .err :=
    fun w h => Along.cons trivial rfl rfl
  unfold cottiI2cInit
  refine Ensures.ite (fun _ => pdevError_exits (by decide)) fun parent => ?_
  refine Ensures.ite (fun _ => pdevError_exits (by decide)) fun properties => ?_
  refine Ensures.ite pdevError_exits fun read => ?_
  refine Ensures.ite (fun _ => pdevError_exits (by decide)) fun clkNode => ?_
  refine Ensures.bind acquire_leads ?_
  refine Ensures.ite (fun _ => clkNodeError_exits (by decide)) fun pinmuxNode => ?_
  refine Ensures.bind acquire_leads ?_
  refine Ensures.ite (fun _ => pinmuxNodeError_exits (by decide)) fun present => ?_
  refine Ensures.bind (clkRate_leads _) ?_
  by_cases dead : x.fclk = .err
  · exact fun _ h => absurd dead h.1
  refine Ensures.pre ?_ fun _ => And.right
  cases clk : x.clkPtr with
  | false => exact Ensures.bind clkFailed (pinmuxNodeError_exits (by decide))
  | true =>
    refine Ensures.bind clkMapped ?_
    cases module : x.controlModulePtr with
    | false => exact Ensures.bind moduleFailed (clkPtrError_exits (by decide))
    | true =>
      refine Ensures.bind moduleMapped ?_
      cases i2c : x.i2cPtr with
      | null => exact Ensures.bind i2cFailed (controlModulePtrError_exits (by decide))
      | err => exact Ensures.bind i2cError (configure_dies x _)
      | ok =>
        -- the mapping would have been made
        have asks := asksClk_of parent properties read clkNode pinmuxNode
        exact absurd ⟨asks.reaches (ErrPtr.ok_of present dead) clk module, i2c⟩ hx

theorem driverProbe_exits {x : Probe} (hx : ¬ x.i2c.Maps) : Exits (Opened []) (driverProbe x) := by
  unfold driverProbe
  refine Ensures.bind (init_exits hx) ?_
  split
  · exact Ensures.pure fun _ => id
  · next zero => exact fun _ h => absurd h.1 zero

theorem lifecycle_exits {x : Probe} {w w' : World} (hx : ¬ x.i2c.Maps) (managed : w.managed = [])
    (h : lifecycle w x = some w') : Opened [] w' := by
  have probed := driverProbe_exits hx { w with log := [] } ⟨managed, fun _ => rfl⟩
  have all : After { w with log := [] } (lifecycleOps x) (Opened []) := by
    unfold lifecycleOps probe
    rw [bind_ops, List.append_assoc]
    refine (probed.imp fun s hs => ?_).append
    rw [if_neg hs.1, if_neg hs.1]
    obtain ⟨-, managed, balanced⟩ := hs
    refine Along.cons trivial rfl ⟨rfl, ?_⟩
    simpa [managed] using balanced
  exact all.final h

end Exits

/-- A lifecycle that finishes is balanced exactly if it has not mapped the
registers. -/
theorem lifecycle_balanced_iff {x : Probe} {w w' : World} (managed : w.managed = [])
    (h : lifecycle w x = some w') : w'.managed = [] ∧ (Balanced w'.log ↔ ¬ x.i2c.Maps) := by
  by_cases hx : x.i2c.Maps
  · obtain ⟨managed', acquired, released⟩ := lifecycle_maps hx managed h
    refine ⟨managed', fun balanced => ?_, fun not => absurd hx not⟩
    have same := balanced (.mapping (w.next + 2))
    rw [acquired, released] at same
    cases same
  · obtain ⟨managed', balanced⟩ := lifecycle_exits hx managed h
    exact ⟨managed', fun _ => hx, fun _ => by simpa using balanced⟩

/-! Lifecycles that finish -/

section Finish

variable {x : Probe} {w : World}

theorem lifecycle_dies (dies : Dies World.exec (fun _ => True) (cottiI2cInit x.i2c)) (w : World) :
    lifecycle w x = none := by
  have probed : Dies World.exec (fun _ => True) (probe x) := Dies.bind (Dies.bind dies)
  rw [lifecycle, lifecycleOps, execAll_append, probed _ trivial]
  rfl

/-- An early exit of `cotti_i2c_init` ends the probe. -/
theorem lifecycle_finishes (h : x.i2c.ExitsEarly) (w : World) : ∃ w', lifecycle w x = some w' := by
  obtain ⟨w₁, run, ne⟩ := init_exits_runs h.early h.clk h.i2c { w with log := [] } trivial
  have val : (driverProbe x).val = (cottiI2cInit x.i2c).val := by
    unfold driverProbe
    rw [bind_val, if_pos ne, pure_val]
  have ops : (driverProbe x).ops = (cottiI2cInit x.i2c).ops := by
    unfold driverProbe
    rw [bind_ops, if_pos ne, pure_ops, List.append_nil]
  have failed : (driverProbe x).val ≠ 0 := val ▸ ne
  have all : lifecycleOps x = (cottiI2cInit x.i2c).ops ++ [.devmRelease] := by
    unfold lifecycleOps probe
    rw [bind_ops, if_neg failed, if_neg failed, ops, List.append_nil]
    rfl
  rw [lifecycle, all, execAll_append, run]
  exact ⟨_, rfl⟩

/-- One lifecycle, from its beginning. -/
theorem lifecycle_iff (managed : w.managed = []) :
    (∃ w', lifecycle w x = some w' ∧ Balanced w'.log) ↔ x.i2c.ExitsEarly := by
  constructor
  · rintro ⟨w', ran, balanced⟩
    refine ⟨(lifecycle_balanced_iff managed ran).2.1 balanced, fun asks err => ?_, fun reaches err => ?_⟩
    · rw [lifecycle_dies (init_dies_clk asks err)] at ran
      cases ran
    · rw [lifecycle_dies (init_dies_i2c reaches err)] at ran
      cases ran
  · intro exits
    obtain ⟨w', ran⟩ := lifecycle_finishes exits w
    exact ⟨w', ran, (lifecycle_balanced_iff managed ran).2.2 exits.early⟩

theorem allBalanced_iff (xs : List Probe) (managed : w.managed = []) :
    AllBalanced w xs ↔ ∀ x ∈ xs, x.i2c.ExitsEarly := by
  induction xs generalizing w with
  | nil => simp [AllBalanced]
  | cons x xs ih =>
    rw [List.forall_mem_cons]
    constructor
    · rintro ⟨w', ran, balanced, rest⟩
      exact ⟨(lifecycle_iff managed).1 ⟨w', ran, balanced⟩, (ih (lifecycle_balanced_iff managed ran).1).1 rest⟩
    · rintro ⟨first, rest⟩
      obtain ⟨w', ran, balanced⟩ := (lifecycle_iff managed).2 first
      exact ⟨w', ran, balanced, (ih (lifecycle_balanced_iff managed ran).1).2 rest⟩

end Finish

/-- **Balance.** In a sequence of probes and removes every lifecycle finishes with every
resource released as often as acquired, if and only if every probe takes an error exit
before the registers are mapped without having followed an error pointer. -/
theorem resources_balanced_iff (xs : List Probe) : AllBalanced {} xs ↔ ∀ x ∈ xs, x.i2c.ExitsEarly :=
  allBalanced_iff xs rfl

/-- A probe without failures and its remove release the registers' mapping twice,
and the region, the cdev and the sensor's node never. -/
theorem goodProbe_ledger : ∃ w, lifecycle {} goodProbe = some w ∧
    w.log.count (.acquire (.mapping 2)) = 1 ∧ w.log.count (.release (.mapping 2)) = 2 ∧
    ∀ r ∈ [.region 240, .cdev, .tempSensorNode],
      w.log.count (.acquire r) = 1 ∧ w.log.count (.release r) = 0 := by
  have ran : (lifecycle {} goodProbe).isSome = true := by decide +kernel
  obtain ⟨w, hw⟩ := Option.isSome_iff_exists.1 ran
  have counted : ∀ w ∈ lifecycle {} goodProbe,
      w.log.count (.acquire (.mapping 2)) = 1 ∧ w.log.count (.release (.mapping 2)) = 2 ∧
      ∀ r ∈ [.region 240, .cdev, .tempSensorNode],
        w.log.count (.acquire r) = 1 ∧ w.log.count (.release r) = 0 := by decide +kernel
  exact ⟨w, hw, counted w hw⟩

theorem goodProbe_unbalanced : ¬ ∀ xs, AllBalanced {} xs := by
  intro all
  obtain ⟨w, ran, acquired, released, -⟩ := goodProbe_ledger
  obtain ⟨w', ran', balanced, -⟩ := all [goodProbe]
  obtain rfl : w = w' := Option.some.inj (ran.symm.trans ran')
  have same : w.log.count (.release (.mapping 2)) = w.log.count (.acquire (.mapping 2)) := balanced (.mapping 2)
  omega

end Beaglebone.Driver
