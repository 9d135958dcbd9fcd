import Beaglebone.Machine.Run

/-!
# `kernel/013_poll`: one flag between the button and its readers

The interrupt handler and any number of `driver_poll` calls, statement by statement.
A call tests `irq_ready` and clears it in two steps, so that several calls may find
the same interrupt, and an interrupt that arrives in between is cleared with the one
before it. Even so an interrupt is never lost: until a call has returned `POLLIN`,
the flag is set or a call that found it set is about to return (`no_lost_interrupt`).
-/

namespace Beaglebone.Kernel.Poll

open Machine

/-- The statement of a `driver_poll` call that is next. -/
inductive PollPc where
  | idle
  /-- `poll_wait(file, &waitqueue, wait)` -/
  | wait
  /-- `if (irq_ready == 1)` -/
  | test
  /-- `irq_ready = 0` -/
  | clear
  /-- `return POLLIN` or `return 0` -/
  | leave (pollin : Bool)
  deriving DecidableEq, Repr

/-- The test has succeeded, and the call has not returned. -/
def PollPc.passed : PollPc → Bool
  | .clear | .leave true => true
  | _ => false

/-- The test is still ahead. -/
def PollPc.ahead : PollPc → Bool
  | .idle | .wait | .test => true
  | _ => false

/-- The statement of `gpio_irq_handler` that is next. -/
inductive IrqPc where
  | off
  /-- `printk("Interrupt triggered!")` -/
  | print
  /-- `irq_ready = 1` -/
  | set
  /-- `wake_up(&waitqueue)` -/
  | wake
  deriving DecidableEq, Repr

structure State (P : Type) where
  irqReady : Int := 0
  poll : P → PollPc := fun _ => .idle
  irq : IrqPc := .off
  /-- history: an interrupt has fired, and no call has returned `POLLIN` since -/
  pending : Bool := false
  /-- history: what the calls of a process have returned, `true` for `POLLIN` -/
  returned : P → List Bool := fun _ => []

inductive Action (P : Type) where
  /-- the button is pressed -/
  | irq
  /-- the next statement of the handler -/
  | handler
  /-- begin a call of `driver_poll` -/
  | call (p : P)
  /-- the next statement of a call -/
  | poll (p : P)
  deriving DecidableEq

section System

variable {P : Type} [DecidableEq P]

def State.goto (g : State P) (p : P) (pc : PollPc) : State P := { g with poll := upd g.poll p pc }

def step (g : State P) : Action P → Option (State P)
  | .irq => match g.irq with
    | .off => some { g with irq := .print }
    | _ => none
  | .handler => match g.irq with
    | .off => none
    | .print => some { g with irq := .set }
    | .set => some { g with irq := .wake, irqReady := 1, pending := true }
    -- whoever sleeps in `poll` calls `driver_poll` again
    | .wake => some { g with irq := .off }
  | .call p => match g.poll p with
    | .idle => some (g.goto p .wait)
    | _ => none
  | .poll p => match g.poll p with
    | .idle => none
    | .wait => some (g.goto p .test)
    | .test => some (g.goto p (if g.irqReady = 1 then .clear else .leave false))
    | .clear => some { g.goto p (.leave true) with irqReady := 0 }
    | .leave r => some { g.goto p .idle with
        pending := g.pending && !r
        returned := upd g.returned p (g.returned p ++ [r]) }

/-- What a step can do. -/
inductive Effect (g g' : State P) : Action P → Prop where
  /-- the handler or the button -/
  | interrupt {a : Action P} (poll : g'.poll = g.poll) (returned : g'.returned = g.returned)
      (ready : g'.irqReady = 1 ∨ g'.irqReady = g.irqReady ∧ g'.pending = g.pending) : Effect g g' a
  | begins {p : P} (pc : g.poll p = .idle) (after : g' = g.goto p .wait) : Effect g g' (.call p)
  | waits {p : P} (pc : g.poll p = .wait) (after : g' = g.goto p .test) : Effect g g' (.poll p)
  | finds {p : P} (pc : g.poll p = .test) (ready : g.irqReady = 1) (after : g' = g.goto p .clear) :
      Effect g g' (.poll p)
  | misses {p : P} (pc : g.poll p = .test) (ready : g.irqReady ≠ 1) (after : g' = g.goto p (.leave false)) :
      Effect g g' (.poll p)
  | clears {p : P} (pc : g.poll p = .clear) (after : g' = { g.goto p (.leave true) with irqReady := 0 }) :
      Effect g g' (.poll p)
  | returns {p : P} {r : Bool} (pc : g.poll p = .leave r)
      (after : g' = { g.goto p .idle with
        pending := g.pending && !r
        returned := upd g.returned p (g.returned p ++ [r]) }) : Effect g g' (.poll p)

variable {g g' s : State P} {a : Action P} {p q : P} {pc : PollPc}

theorem step_cases (hs : step g a = some g') : Effect g g' a := by
  cases a with
  | irq =>
    simp only [step] at hs
    split at hs <;> cases hs
    exact .interrupt rfl rfl (.inr ⟨rfl, rfl⟩)
  | handler =>
    simp only [step] at hs
    split at hs
    · cases hs
    · cases hs; exact .interrupt rfl rfl (.inr ⟨rfl, rfl⟩)
    · cases hs; exact .interrupt rfl rfl (.inl rfl)
    · cases hs; exact .interrupt rfl rfl (.inr ⟨rfl, rfl⟩)
  | call p =>
    simp only [step] at hs
    split at hs
    · next pc => exact .begins pc (Option.some.inj hs).symm
    · cases hs
  | poll p =>
    simp only [step] at hs
    split at hs
    · cases hs
    · next pc => exact .waits pc (Option.some.inj hs).symm
    · next pc =>
      have after := (Option.some.inj hs).symm
      by_cases ready : g.irqReady = 1
      · rw [if_pos ready] at after; exact .finds pc ready after
      · rw [if_neg ready] at after; exact .misses pc ready after
    · next pc => exact .clears pc (Option.some.inj hs).symm
    · next pc => exact .returns pc (Option.some.inj hs).symm

@[simp] theorem goto_self : (g.goto p pc).poll p = pc := upd_same ..

theorem goto_other (h : q ≠ p) : (g.goto p pc).poll q = g.poll q := upd_other _ _ h

/-! ## The flag and the calls in progress -/

/-- Some call has passed its test and will return `POLLIN`. -/
def State.Delivering (g : State P) : Prop := ∃ p, (g.poll p).passed = true

/-- A call that had not passed its test moves on. -/
theorem State.Delivering.goto (h : g.Delivering) (behind : (g.poll p).passed = false) : (g.goto p pc).Delivering := by
  obtain ⟨q, passed⟩ := h
  have other : q ≠ p := by
    rintro rfl
    rw [passed] at behind
    cases behind
  exact ⟨q, by rw [goto_other other]; exact passed⟩

/-- **The invariant.** An interrupt that no call has returned is in the flag, or in a
call that has passed its test. -/
def Kept (g : State P) : Prop := g.pending = true → g.irqReady = 1 ∨ g.Delivering

theorem Kept.step (h : Kept g) (hs : step g a = some g') : Kept g' := by
  intro pending
  cases step_cases hs with
  | interrupt poll returned ready =>
    rcases ready with set | ⟨ready, same⟩
    · exact .inl set
    · rw [same] at pending
      rcases h pending with set | ⟨p, passed⟩
      · exact .inl (ready.trans set)
      · exact .inr ⟨p, by rw [poll]; exact passed⟩
  | begins pc after => subst after; exact (h pending).imp id fun d => d.goto (by rw [pc]; rfl)
  | waits pc after => subst after; exact (h pending).imp id fun d => d.goto (by rw [pc]; rfl)
  | misses pc ready after => subst after; exact (h pending).imp id fun d => d.goto (by rw [pc]; rfl)
  | @finds p pc ready after => subst after; exact .inr ⟨p, by rw [goto_self]; rfl⟩
  | @clears p pc after => subst after; exact .inr ⟨p, by show ((g.goto p _).poll p).passed = _; rw [goto_self]; rfl⟩
  | @returns p r pc after =>
    subst after
    obtain ⟨old, zero⟩ : g.pending = true ∧ r = false := by simpa using pending
    subst zero
    exact (h old).imp id fun d => d.goto (p := p) (by rw [pc]; rfl)

theorem kept (h : Reach step always {} g) : Kept g :=
  h.invariant (fun pending => by cases pending) fun _ _ _ hi _ hs => hi.step hs

/-! ## The next call -/

/-- Until the call of `p` after the returns `before` has passed its test, no other call
gets to its own test. -/
def TestsFirst (p : P) (before : List Bool) (s : State P) (a : Action P) : Prop :=
  ∀ q, a = .poll q → s.poll q = .test → q = p ∨ (s.poll p).passed = true ∨ s.returned p ≠ before

/-- The call of `p` after the returns `before` gets `POLLIN`, or has got it. -/
inductive Gets (p : P) (before : List Bool) (s : State P) : Prop where
  /-- the flag is set, and every call has its test ahead -/
  | ahead (returned : s.returned p = before) (ready : s.irqReady = 1) (ahead : ∀ q, (s.poll q).ahead = true)
  | passed (returned : s.returned p = before) (passed : (s.poll p).passed = true)
  | got (later : List Bool) (returned : s.returned p = before ++ true :: later)

variable {before : List Bool}

theorem ahead_goto (all : ∀ q, (g.poll q).ahead = true) (new : pc.ahead = true) : ∀ q, ((g.goto p pc).poll q).ahead = true := by
  intro q
  by_cases same : q = p
  · rw [same, goto_self]; exact new
  · rw [goto_other same]; exact all q

/-- A call that has passed its test returns `POLLIN`. -/
theorem passed_step (h : (g.poll p).passed = true) (hs : step g a = some g') :
    (g'.poll p).passed = true ∧ g'.returned p = g.returned p ∨ g'.returned p = g.returned p ++ [true] := by
  have other : ∀ {q : P} {pc : PollPc}, (g.poll q).passed = false → ((g.goto q pc).poll p).passed = true := by
    intro q pc behind
    have ne : p ≠ q := by
      rintro rfl
      rw [h] at behind
      cases behind
    rw [goto_other ne]
    exact h
  cases step_cases hs with
  | interrupt poll returned => exact .inl ⟨by rw [poll]; exact h, by rw [returned]⟩
  | begins pc after => subst after; exact .inl ⟨other (by rw [pc]; rfl), rfl⟩
  | waits pc after => subst after; exact .inl ⟨other (by rw [pc]; rfl), rfl⟩
  | finds pc ready after => subst after; exact .inl ⟨other (by rw [pc]; rfl), rfl⟩
  | misses pc ready after => subst after; exact .inl ⟨other (by rw [pc]; rfl), rfl⟩
  | @clears q pc after =>
    subst after
    left
    refine ⟨?_, rfl⟩
    show ((g.goto q (.leave true)).poll p).passed = true
    by_cases same : p = q
    · rw [same, goto_self]; rfl
    · rw [goto_other same]; exact h
  | @returns q r pc after =>
    subst after
    by_cases same : p = q
    · subst same
      rw [pc] at h
      cases r with
      | true => exact .inr (upd_same ..)
      | false => cases h
    · refine .inl ⟨?_, upd_other _ _ same⟩
      show ((g.goto q .idle).poll p).passed = true
      rw [goto_other same]
      exact h

/-- What has been returned is not taken back. -/
theorem returned_step (hs : step g a = some g') (p : P) : ∃ new, g'.returned p = g.returned p ++ new := by
  cases step_cases hs with
  | interrupt poll returned => exact ⟨[], by rw [returned, List.append_nil]⟩
  | begins pc after | waits pc after | finds pc ready after | misses pc ready after | clears pc after =>
    subst after
    exact ⟨[], (List.append_nil _).symm⟩
  | @returns q r pc after =>
    subst after
    by_cases same : p = q
    · subst same; exact ⟨[r], upd_same ..⟩
    · exact ⟨[], by rw [List.append_nil]; exact upd_other _ _ same⟩

theorem Gets.step (h : Gets p before g) (first : TestsFirst p before g a) (hs : step g a = some g') :
    Gets p before g' := by
  cases h with
  | ahead returned ready all =>
    have none : ∀ {q : P} {pc : PollPc}, g.poll q = pc → pc.ahead = true := fun here => here ▸ all _
    cases step_cases hs with
    | interrupt poll same now =>
      refine .ahead (by rw [same]; exact returned) ?_ (by rw [poll]; exact all)
      rcases now with set | ⟨kept, -⟩
      · exact set
      · exact kept.trans ready
    | begins pc after => subst after; exact .ahead returned ready (ahead_goto all rfl)
    | waits pc after => subst after; exact .ahead returned ready (ahead_goto all rfl)
    | @finds q pc set after =>
      subst after
      rcases first q rfl pc with rfl | passed | late
      · exact .passed returned (by rw [goto_self]; rfl)
      · have ahead := all p
        cases here : g.poll p <;> rw [here] at ahead passed <;> cases ahead <;> cases passed
      · exact absurd returned late
    | misses pc unset after => exact absurd ready unset
    | clears pc after => cases none pc
    | returns pc after => cases none pc
  | passed returned passed =>
    rcases passed_step passed hs with ⟨still, same⟩ | now
    · exact .passed (same.trans returned) still
    · exact .got [] (by rw [now, returned])
  | got later returned =>
    obtain ⟨new, more⟩ := returned_step hs p
    exact .got (later ++ new) (by rw [more, returned]; simp)

end System

/-- **No lost interrupt.** While an interrupt has fired and no call has returned
`POLLIN` since, the flag is set or some call is about to return `POLLIN`. If no call is
in progress then, the next one gets `POLLIN`: whichever call is the first to reach its
test, whatever the button and the other calls do, and a call does return. -/
theorem no_lost_interrupt {P : Type} [DecidableEq P] {g : State P} (h : Reach step always {} g)
    (pending : g.pending = true) :
    (g.irqReady = 1 ∨ ∃ p, (g.poll p).passed = true) ∧
    ((∀ q, g.poll q = .idle) → ∀ p,
      (∀ s, Reach step (TestsFirst p (g.returned p)) g s →
        s.returned p = g.returned p ∨ ∃ later, s.returned p = g.returned p ++ true :: later) ∧
      ∃ s, runIf step always g [.call p, .poll p, .poll p, .poll p, .poll p] = some s ∧
        s.returned p = g.returned p ++ [true]) := by
  have found := kept h pending
  refine ⟨found, fun idle p => ?_⟩
  have ready : g.irqReady = 1 := by
    rcases found with set | ⟨q, passed⟩
    · exact set
    · rw [idle q] at passed; cases passed
  constructor
  · intro s run
    have gets : Gets p (g.returned p) s :=
      run.invariant (.ahead rfl ready fun q => by rw [idle q]; rfl) fun _ _ _ hi ok hs => hi.step ok hs
    cases gets with
    | ahead returned => exact .inl returned
    | passed returned => exact .inl returned
    | got later returned => exact .inr ⟨later, returned⟩
  · refine ⟨_, by simp [runIf, always, step, idle p, State.goto, ready, upd]; rfl, ?_⟩
    simp

/-- A call has just cleared the flag. -/
def clearing : List (Action Bool) :=
  [.irq, .handler, .handler, .call true, .call false, .poll false, .poll false, .poll false]

theorem clearing_not_lost : ∃ g : State Bool, g.pending = true ∧ g.irqReady = 0 ∧ ∃ p, (g.poll p).passed = true := by
  obtain ⟨g, run, pending, cleared⟩ := exists_reach step always
    (fun g => g.pending = true ∧ g.irqReady = 0) ({} : State Bool) clearing (by decide)
  obtain ⟨found, -⟩ := no_lost_interrupt run pending
  rw [cleared] at found
  exact ⟨g, pending, cleared, found.resolve_left (by decide)⟩

end Beaglebone.Kernel.Poll
