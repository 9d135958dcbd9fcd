import Mathlib.Data.List.Infix
import Beaglebone.Machine.Monitor

/-!
# Linearizability

Processes call the operations of a shared object; a caller sees its calls and
their results (`Event`). The object is given by a sequential specification
`spec d c r d'`: in state `d` the operation `c` may answer `r` and leave `d'`. A
history is linearized (`Linearization`) by an order of operations that is legal
for the specification, agrees with what every process saw, and puts what had
returned before what was called later.

The canonical atomic object (`AtomicRun`) performs each operation in one internal
step between its call and its return; every history of it has a linearization.
`Commits` are the verification conditions of a monitor whose operations take
effect when they release the mutex: its runs are simulated by the atomic object
(`Commits.atomic`).
-/

namespace Beaglebone.Machine

variable {P C R δ : Type*}

/-- What a caller sees. -/
inductive Event (P C R : Type*) where
  | call (p : P) (c : C)
  | ret (p : P) (r : R)
  deriving DecidableEq, Repr

/-- The process that sees it. -/
def Event.owner : Event P C R → P
  | .call p _ | .ret p _ => p

/-- How far a call of the atomic object is. -/
inductive CallStage (C R : Type*) where
  | idle
  | called (c : C)
  | taken (c : C) (r : R)
  deriving DecidableEq, Repr

/-- The atomic object: its state, the calls in progress, and the operations in
the order in which they took effect. -/
structure AtomicObject (P C R δ : Type*) where
  obj : δ
  stage : P → CallStage C R := fun _ => .idle
  order : List (P × C × R) := []

/-- The operations may happen one after the other, from one state to another. -/
inductive Legal (spec : δ → C → R → δ → Prop) (d₀ : δ) : List (P × C × R) → δ → Prop where
  | nil : Legal spec d₀ [] d₀
  | snoc {ops : List (P × C × R)} {p : P} {c : C} {r : R} {d d' : δ} : Legal spec d₀ ops d →
      spec d c r d' → Legal spec d₀ (ops ++ [(p, c, r)]) d'

section Linearization

variable [DecidableEq P] {spec : δ → C → R → δ → Prop} {d₀ : δ}

/-- The runs of the atomic object and the histories they show. -/
inductive AtomicRun (spec : δ → C → R → δ → Prop) (d₀ : δ) :
    List (Event P C R) → AtomicObject P C R δ → Prop where
  | start : AtomicRun spec d₀ [] { obj := d₀ }
  | call {h : List (Event P C R)} {t : AtomicObject P C R δ} (p : P) (c : C) : AtomicRun spec d₀ h t →
      t.stage p = .idle →
      AtomicRun spec d₀ (h ++ [.call p c]) { t with stage := upd t.stage p (.called c) }
  | take {h : List (Event P C R)} {t : AtomicObject P C R δ} (p : P) {c : C} {r : R} {d : δ} :
      AtomicRun spec d₀ h t → t.stage p = .called c → spec t.obj c r d →
      AtomicRun spec d₀ h { obj := d, stage := upd t.stage p (.taken c r), order := t.order ++ [(p, c, r)] }
  | ret {h : List (Event P C R)} {t : AtomicObject P C R δ} (p : P) {c : C} {r : R} : AtomicRun spec d₀ h t →
      t.stage p = .taken c r →
      AtomicRun spec d₀ (h ++ [.ret p r]) { t with stage := upd t.stage p .idle }

/-- The part of a history that `p` sees. -/
def seen (p : P) (h : List (Event P C R)) : List (Event P C R) := h.filter (·.owner = p)

/-- What `p` would see of these operations, each one called and answered at once. -/
def told (p : P) (ops : List (P × C × R)) : List (Event P C R) :=
  (ops.filter (·.1 = p)).flatMap fun op => [.call op.1 op.2.1, .ret op.1 op.2.2]

/-- What `p` sees is its part of the operations, up to a call that is still to
take effect or to return. -/
def Agrees (p : P) (h : List (Event P C R)) (ops : List (P × C × R)) : Prop :=
  seen p h = told p ops ∨ (∃ c, seen p h = told p ops ++ [.call p c]) ∨
    ∃ r, seen p h ++ [.ret p r] = told p ops

/-- `ops` linearizes the history `h`: it leads from `d₀` to `d`, every process
agrees with it, and so it does at every point of the history with the operations
up to there. An operation that had returned at that point is among them, one that
was called later is not. -/
structure Linearization (spec : δ → C → R → δ → Prop) (d₀ : δ) (h : List (Event P C R))
    (ops : List (P × C × R)) (d : δ) : Prop where
  legal : Legal spec d₀ ops d
  agrees : ∀ p, Agrees p h ops
  prompt : ∀ h₁, h₁ <+: h → ∃ ops₁, ops₁ <+: ops ∧ ∀ p, Agrees p h₁ ops₁

@[simp] theorem seen_append (p : P) (h h' : List (Event P C R)) : seen p (h ++ h') = seen p h ++ seen p h' :=
  List.filter_append ..

@[simp] theorem seen_call (p q : P) (c : C) :
    seen p [(.call q c : Event P C R)] = if q = p then [.call q c] else [] := by
  by_cases same : q = p <;> simp [seen, Event.owner, same]

@[simp] theorem seen_ret (p q : P) (r : R) :
    seen p [(.ret q r : Event P C R)] = if q = p then [.ret q r] else [] := by
  by_cases same : q = p <;> simp [seen, Event.owner, same]

@[simp] theorem told_append (p : P) (ops ops' : List (P × C × R)) :
    told p (ops ++ ops') = told p ops ++ told p ops' := by
  simp [told]

@[simp] theorem told_one (p q : P) (c : C) (r : R) :
    told p [(q, c, r)] = if q = p then [.call q c, .ret q r] else [] := by
  by_cases same : q = p <;> simp [told, same]

/-- What a process at this stage has seen. -/
def CallStage.Told (p : P) (h : List (Event P C R)) (ops : List (P × C × R)) : CallStage C R → Prop
  | .idle => seen p h = told p ops
  | .called c => seen p h = told p ops ++ [.call p c]
  | .taken _ r => seen p h ++ [.ret p r] = told p ops

theorem CallStage.Told.agrees {p : P} {h : List (Event P C R)} {ops : List (P × C × R)} {st : CallStage C R}
    (told : st.Told p h ops) : Agrees p h ops := by
  cases st with
  | idle => exact .inl told
  | called c => exact .inr (.inl ⟨c, told⟩)
  | taken c r => exact .inr (.inr ⟨r, told⟩)

/-- An event of another process adds nothing to what `p` has seen. -/
theorem CallStage.Told.event {p q : P} {h : List (Event P C R)} {ops : List (P × C × R)} {st : CallStage C R}
    (told : st.Told p h ops) {e : Event P C R} (owner : e.owner = q) (ne : p ≠ q) :
    st.Told p (h ++ [e]) ops := by
  have none : seen p [e] = [] := by simp [seen, owner, Ne.symm ne]
  cases st <;> simpa [Told, none] using told

/-- So does its operation. -/
theorem CallStage.Told.operation {p q : P} {h : List (Event P C R)} {ops : List (P × C × R)} {st : CallStage C R}
    (told : st.Told p h ops) (ne : p ≠ q) (c : C) (r : R) : st.Told p h (ops ++ [(q, c, r)]) := by
  cases st <;> simpa [Told, Ne.symm ne] using told

theorem AtomicRun.told {h : List (Event P C R)} {t : AtomicObject P C R δ} (run : AtomicRun spec d₀ h t)
    (p : P) : (t.stage p).Told p h t.order := by
  induction run with
  | start => rfl
  | @call h t q c _ idle ih =>
    by_cases same : p = q
    · subst same
      rw [idle] at ih
      simpa [CallStage.Told] using ih
    · show (upd t.stage q (.called c) p).Told p _ _
      rw [upd_other _ _ same]
      exact ih.event rfl same
  | @take h t q c r d _ called _ ih =>
    by_cases same : p = q
    · subst same
      rw [called] at ih
      simpa [CallStage.Told] using congrArg (· ++ [Event.ret p r]) ih
    · show (upd t.stage q (.taken c r) p).Told p _ _
      rw [upd_other _ _ same]
      exact ih.operation same c r
  | @ret h t q c r _ taken ih =>
    by_cases same : p = q
    · subst same
      rw [taken] at ih
      simpa [CallStage.Told] using ih
    · show (upd t.stage q .idle p).Told p _ _
      rw [upd_other _ _ same]
      exact ih.event rfl same

theorem AtomicRun.legal {h : List (Event P C R)} {t : AtomicObject P C R δ} (run : AtomicRun spec d₀ h t) :
    Legal spec d₀ t.order t.obj := by
  induction run with
  | start => exact .nil
  | call _ _ _ _ ih => exact ih
  | take _ _ _ allowed ih => exact .snoc ih allowed
  | ret _ _ _ ih => exact ih

/-- Every point of the history was reached with a part of the order. -/
theorem AtomicRun.earlier {h : List (Event P C R)} {t : AtomicObject P C R δ} (run : AtomicRun spec d₀ h t)
    {h₁ : List (Event P C R)} (before : h₁ <+: h) :
    ∃ t₁, AtomicRun spec d₀ h₁ t₁ ∧ t₁.order <+: t.order := by
  induction run with
  | start =>
    obtain rfl := List.prefix_nil.1 before
    exact ⟨_, .start, List.prefix_refl _⟩
  | call p c run idle ih =>
    rcases List.prefix_concat_iff.1 before with rfl | before
    · exact ⟨_, .call p c run idle, List.prefix_refl _⟩
    · exact ih before
  | take p run called allowed ih =>
    obtain ⟨t₁, run₁, part⟩ := ih before
    exact ⟨t₁, run₁, part.trans (List.prefix_append ..)⟩
  | ret p run taken ih =>
    rcases List.prefix_concat_iff.1 before with rfl | before
    · exact ⟨_, .ret p run taken, List.prefix_refl _⟩
    · exact ih before

/-- **The atomic object is linearizable.** -/
theorem AtomicRun.linearization {h : List (Event P C R)} {t : AtomicObject P C R δ}
    (run : AtomicRun spec d₀ h t) : Linearization spec d₀ h t.order t.obj where
  legal := run.legal
  agrees p := (run.told p).agrees
  prompt _ before := by
    obtain ⟨t₁, run₁, part⟩ := run.earlier before
    exact ⟨t₁.order, part, fun p => (run₁.told p).agrees⟩

omit [DecidableEq P] in
/-- An abstraction of the states that carries one specification to another carries
the legal orders along. -/
theorem Legal.map {δ' : Type*} {spec' : δ' → C → R → δ' → Prop} {f : δ → δ'} {ops : List (P × C × R)} {d : δ}
    (legal : Legal spec d₀ ops d) (step : ∀ d c r d', spec d c r d' → spec' (f d) c r (f d')) :
    Legal spec' (f d₀) ops (f d) := by
  induction legal with
  | nil => exact .nil
  | snoc _ allowed ih => exact .snoc ih (step _ _ _ _ allowed)

omit [DecidableEq P] in
theorem Legal.inv {ops : List (P × C × R)} {p : P} {c : C} {r : R} {d : δ}
    (legal : Legal spec d₀ (ops ++ [(p, c, r)]) d) : ∃ d₁, Legal spec d₀ ops d₁ ∧ spec d₁ c r d := by
  generalize all : ops ++ [(p, c, r)] = ops' at legal
  cases legal with
  | nil => simp at all
  | snoc legal allowed =>
    obtain ⟨rfl, last⟩ := List.append_inj' all rfl
    cases last
    exact ⟨_, legal, allowed⟩

omit [DecidableEq P] in
/-- Every operation of a legal order is allowed where it stands. -/
theorem Legal.at {before after : List (P × C × R)} {p : P} {c : C} {r : R} {d : δ}
    (legal : Legal spec d₀ (before ++ (p, c, r) :: after) d) :
    ∃ d₁ d₂, Legal spec d₀ before d₁ ∧ spec d₁ c r d₂ := by
  induction after using List.reverseRecOn generalizing d with
  | nil =>
    obtain ⟨d₁, legal, allowed⟩ := legal.inv
    exact ⟨d₁, d, legal, allowed⟩
  | append_singleton after last ih =>
    rw [← List.cons_append, ← List.append_assoc] at legal
    obtain ⟨d₁, legal, -⟩ := legal.inv
    exact ih legal

end Linearization

section Traces

variable {σ α β : Type*}

/-- The runs whose steps all meet `ok`, with what they show. -/
inductive Trace (step : σ → α → Option σ) (ok : σ → α → Prop) (shown : σ → α → List β) (s₀ : σ) :
    List β → σ → Prop where
  | start : Trace step ok shown s₀ [] s₀
  | step {h : List β} {s s' : σ} {a : α} : Trace step ok shown s₀ h s → ok s a → step s a = some s' →
      Trace step ok shown s₀ (h ++ shown s a) s'

variable {step : σ → α → Option σ} {ok : σ → α → Prop} {shown : σ → α → List β} {s₀ s : σ}

theorem Trace.reach {h : List β} (tr : Trace step ok shown s₀ h s) : Reach step ok s₀ s := by
  induction tr with
  | start => exact .start
  | step _ ha hs ih => exact .step ih ha hs

/-- **The simulation rule.** If every step is matched by some steps of an abstract
system that show the same, so is every run. -/
theorem Trace.simulation {τ : Type*} {Run : List β → τ → Prop} {rel : σ → τ → Prop} {h : List β}
    (tr : Trace step ok shown s₀ h s) (h₀ : ∃ t, Run [] t ∧ rel s₀ t)
    (hstep : ∀ h s a s' t, Reach step ok s₀ s → ok s a → step s a = some s' → Run h t → rel s t →
      ∃ t', Run (h ++ shown s a) t' ∧ rel s' t') : ∃ t, Run h t ∧ rel s t := by
  induction tr with
  | start => exact h₀
  | step tr ha hs ih =>
    obtain ⟨t, run, related⟩ := ih
    exact hstep _ _ _ _ t tr.reach ha hs run related

variable (step shown) in
/-- What a list of labels shows. -/
def shows : σ → List α → List β
  | _, [] => []
  | s, a :: as => shown s a ++ match step s a with
    | none => []
    | some s' => shows s' as

variable [∀ s a, Decidable (ok s a)]

theorem Trace.runIf {h : List β} {s' : σ} (tr : Trace step ok shown s₀ h s) {as : List α}
    (hr : runIf step ok s as = some s') : Trace step ok shown s₀ (h ++ shows step shown s as) s' := by
  induction as generalizing s h with
  | nil =>
    simp only [Machine.runIf, Option.some.injEq] at hr
    subst hr
    simpa [shows] using tr
  | cons a as ih =>
    simp only [Machine.runIf] at hr
    split at hr
    · next ha =>
      obtain ⟨t, ht, hr⟩ := Option.bind_eq_some_iff.1 hr
      have later := ih (tr.step ha ht) hr
      simpa [shows, ht] using later
    · cases hr

variable (step ok shown) in
/-- An executed list of labels is a run that shows what was executed. -/
theorem exists_trace (p : σ → Prop) [DecidablePred p] (s : σ) (as : List α)
    (h : (Machine.runIf step ok s as).any (p ·) = true) :
    ∃ t, Trace step ok shown s (shows step shown s as) t ∧ p t := by
  cases run : Machine.runIf step ok s as with
  | none => rw [run] at h; cases h
  | some t =>
    rw [run] at h
    have tr : Trace step ok shown s [] s := .start
    exact ⟨t, tr.runIf run, of_decide_eq_true h⟩

end Traces

namespace Monitor

variable {L S I E O : Type*}

/-- The calls begin with the inputs that `inv` gives an operation for, and the
outputs are their results. -/
def events (M : Monitor L S I E O) (inv : I → Option C) (res : O → R) (g : Global P L S O) :
    Act P I E → List (Event P C R)
  | .env _ => []
  | .proc p i =>
    ((inv i).map (.call p)).toList ++
      (((M.run g.lock.isSome (g.proc p) g.shared i).bind (·.out)).map fun o => .ret p (res o)).toList

/-- What a statement without the mutex may mean for its call: it begins, goes on,
takes effect without any change of the object, or returns. -/
inductive Outer (spec : δ → C → R → δ → Prop) : Option C → Option R → CallStage C R → CallStage C R → Prop where
  | call (c : C) : Outer spec (some c) none .idle (.called c)
  | stay (st : CallStage C R) : Outer spec none none st st
  | pass {c : C} {r : R} (allowed : ∀ d, spec d c r d) : Outer spec none none (.called c) (.taken c r)
  | ret (c : C) (r : R) : Outer spec none (some r) (.taken c r) .idle

/-- Verification conditions of an object whose operations take effect when they
release the mutex. `W d o s` relates the state `d` of the object between two
operations to the owner and the shared state; `At` says how far a call is. -/
structure Commits (M : Monitor L S I E O) (c : Cond L S I E) (J : Option L → S → Prop) (K : L → S → Prop)
    (inv : I → Option C) (res : O → R) (spec : δ → C → R → δ → Prop) (W : δ → Option L → S → Prop)
    (At : L → S → CallStage C R → Prop) : Prop where
  env : ∀ {d o s e s'}, J o s → c.env o s e → M.env s e = some s' → W d o s →
    W d o s' ∧ ∀ l st, At l s st → At l s' st
  others : ∀ {b l l' s i m st}, M.run b l s i = some m → At l' s st → At l' m.shared st
  own : ∀ {d b l s i m st}, J (some l) s → M.inside l = true → c.proc l s i → M.run b l s i = some m →
    m.op = .keep → W d (some l) s → At l s st →
    inv i = none ∧ m.out = none ∧ W d (some m.loc) m.shared ∧ At m.loc m.shared st
  enter : ∀ {d b l s i m st}, J none s → K l s → M.run b l s i = some m → m.op = .acquire → W d none s →
    At l s st → inv i = none ∧ m.out = none ∧ W d (some m.loc) m.shared ∧ At m.loc m.shared st
  leave : ∀ {d b l s i m st}, J (some l) s → M.inside l = true → M.run b l s i = some m → m.op = .release →
    W d (some l) s → At l s st → inv i = none ∧ m.out = none ∧
      ∃ c r d', st = .called c ∧ spec d c r d' ∧ W d' none m.shared ∧ At m.loc m.shared (.taken c r)
  outside : ∀ {o b l s i m st}, J o s → M.inside l = false → K l s → M.run b l s i = some m → m.op = .keep →
    At l s st → ∃ st', At m.loc s st' ∧ Outer spec (inv i) (m.out.map res) st st'

/-- The monitor and the atomic object agree. -/
structure Linked (W : δ → Option L → S → Prop) (At : L → S → CallStage C R → Prop) (g : Global P L S O)
    (t : AtomicObject P C R δ) : Prop where
  object : W t.obj g.owner g.shared
  calls : ∀ p, At (g.proc p) g.shared (t.stage p)

section Atomicity

variable [DecidableEq P] {M : Monitor L S I E O} {c : Cond L S I E} {J : Option L → S → Prop}
  {K : L → S → Prop} {Q : O → Prop} {inv : I → Option C} {res : O → R} {spec : δ → C → R → δ → Prop}
  {W : δ → Option L → S → Prop} {At : L → S → CallStage C R → Prop} {d₀ : δ} {g g' : Global P L S O}
  {h : List (Event P C R)} {t : AtomicObject P C R δ}

omit [DecidableEq P] in
theorem events_proc {p : P} {i : I} {m : Move L S O}
    (run : M.run g.lock.isSome (g.proc p) g.shared i = some m) : M.events inv res g (.proc p i) =
      ((inv i).map (.call p)).toList ++ (m.out.map fun o => (.ret p (res o) : Event P C R)).toList := by
  simp [events, run]

/-- The processes other than `p` stay where they are. -/
theorem Commits.calls (V : M.Commits c J K inv res spec W At) {p : P} {i : I} {m : Move L S O}
    (run : M.run g.lock.isSome (g.proc p) g.shared i = some m)
    (proc : g'.proc = upd g.proc p m.loc) (shared : g'.shared = m.shared)
    (link : ∀ q, At (g.proc q) g.shared (t.stage q)) {st : CallStage C R} (self : At m.loc m.shared st) :
    ∀ q, At (g'.proc q) g'.shared (upd t.stage p st q) := by
  intro q
  rw [proc, shared]
  by_cases same : q = p
  · subst same
    rw [upd_same, upd_same]
    exact self
  · rw [upd_other _ _ same, upd_other _ _ same]
    exact V.others run (link q)

/-- The stage of `p` itself is what it was. -/
theorem upd_stage (t : AtomicObject P C R δ) (p : P) : upd t.stage p (t.stage p) = t.stage := by
  funext q
  by_cases same : q = p
  · subst same; rw [upd_same]
  · rw [upd_other _ _ same]

/-- One step of the monitor is at most one step of the atomic object. -/
theorem Commits.step (hM : M.Disciplined) (V : M.Commits c J K inv res spec W At)
    (sound : M.Sound J K Q g) {a : Act P I E} (ha : M.ok c g a) (hs : M.step g a = some g')
    (run : AtomicRun spec d₀ h t) (link : Linked W At g t) :
    ∃ t', AtomicRun spec d₀ (h ++ M.events inv res g a) t' ∧ Linked W At g' t' := by
  cases a with
  | env e =>
    obtain ⟨s, he, rfl⟩ := step_env hs
    obtain ⟨object, calls⟩ := V.env sound.owner ha.1 he link.object
    refine ⟨t, ?_, object, fun p => calls _ _ (link.calls p)⟩
    simpa [events] using run
  | proc p i =>
    obtain ⟨m, hr, proc, shared, -, op⟩ := step_proc hs
    have self : g'.proc p = m.loc := by rw [proc, upd_same]
    rw [events_proc hr]
    rcases op with ⟨op, lock⟩ | ⟨op, free, lock⟩ | ⟨op, lock⟩
    · cases inside : M.inside (g.proc p) with
      | true =>
        -- the owner goes on
        have mine : g.lock = some p := (sound.held p).1 inside
        have owner : g.owner = some (g.proc p) := owner_of_lock mine
        obtain ⟨silent, quiet, object, at_⟩ := V.own (owner ▸ sound.owner) inside ha hr op
          (owner ▸ link.object) (link.calls p)
        refine ⟨t, by simpa [silent, quiet] using run, ?_, ?_⟩
        · rw [owner_of_lock (lock.trans mine), self, shared]
          exact object
        · have calls := V.calls hr proc shared link.calls at_
          rwa [upd_stage] at calls
      | false =>
        -- a statement without the mutex
        have unchanged : m.shared = g.shared := hM.frame hr op inside
        have notMe : g.lock ≠ some p := fun e => by simpa [inside] using (sound.held p).2 e
        have owner : g'.owner = g.owner := by
          simp only [Global.owner, lock]
          cases hlk : g.lock with
          | none => rfl
          | some q => simp [proc, upd_other g.proc m.loc fun e : q = p => notMe (e ▸ hlk)]
        obtain ⟨st', at_, outer⟩ := V.outside sound.owner inside (sound.outside p inside) hr op (link.calls p)
        rw [← unchanged] at at_
        have object : W t.obj g'.owner g'.shared := by
          rw [owner, shared, unchanged]
          exact link.object
        have calls := V.calls hr proc shared link.calls at_
        generalize inv i = c₁, hst : t.stage p = st at outer ⊢
        cases out : m.out with
        | none =>
          rw [out] at outer
          cases outer with
          | call c => exact ⟨_, run.call p c hst, object, calls⟩
          | stay =>
            refine ⟨t, by simpa using run, object, ?_⟩
            rwa [← hst, upd_stage] at calls
          | pass allowed =>
            simp only [Option.map_none, Option.toList_none, List.append_nil]
            exact ⟨_, run.take p hst (allowed t.obj), object, calls⟩
        | some o =>
          rw [out] at outer
          cases outer with
          | ret c r => exact ⟨_, run.ret p hst, object, calls⟩
    · obtain ⟨silent, quiet, object, at_⟩ := V.enter (owner_of_free free ▸ sound.owner)
        (sound.outside p (hM.acquire hr op).1) hr op (owner_of_free free ▸ link.object) (link.calls p)
      refine ⟨t, by simpa [silent, quiet] using run, ?_, ?_⟩
      · rw [owner_of_lock lock, self, shared]
        exact object
      · have calls := V.calls hr proc shared link.calls at_
        rwa [upd_stage] at calls
    · -- the operation takes effect
      have inside := (hM.release hr op).1
      have owner : g.owner = some (g.proc p) := owner_of_lock ((sound.held p).1 inside)
      obtain ⟨silent, quiet, c₁, r, d', stage, allowed, object, at_⟩ := V.leave (owner ▸ sound.owner) inside
        hr op (owner ▸ link.object) (link.calls p)
      refine ⟨_, by simpa [silent, quiet] using run.take p stage allowed, ?_,
        V.calls hr proc shared link.calls at_⟩
      rw [owner_of_free lock, shared]
      exact object

/-- **Commit at the release.** Every run of the monitor shows a history of the
atomic object, whose state is that of the object when the mutex is free. -/
theorem Commits.atomic (hM : M.Disciplined) (V : M.Commits c J K inv res spec W At) (rules : M.Rules c J K Q)
    {g₀ : Global P L S O} (sound : M.Sound J K Q g₀) (link : Linked W At g₀ { obj := d₀ })
    (tr : Trace M.step (M.ok c) (M.events inv res) g₀ h g) :
    ∃ t, AtomicRun spec d₀ h t ∧ Linked W At g t :=
  tr.simulation ⟨_, .start, link⟩ fun _ _ _ _ _ reach ha hs run related =>
    V.step hM (rules.sound hM sound reach) ha hs run related

end Atomicity

end Monitor

end Beaglebone.Machine
