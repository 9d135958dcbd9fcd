import Beaglebone.Kernel.Poll

/-!
# `kernel/013_poll` under `poll(2)`

Any number of processes wait for the button in `poll(2)` without a timeout, as
`user_test.c` does: the kernel calls `driver_poll`, whose `poll_wait` puts the process
into the wait queue, and if the call returns 0 the process sleeps until it is woken up and
calls `driver_poll` again. What the calls and the handler do is a run of
`Kernel.Poll`; no process sleeps on while the flag is set, and an interrupt that nobody
has got has somebody awake for it (`sleepers_woken`).
-/

namespace Beaglebone.Kernel.PollWait

open Machine
open Poll (PollPc IrqPc)

structure State (P : Type) where
  core : Poll.State P := {}
  /-- `driver_poll` has returned 0, and the process waits until it is triggered -/
  waiting : P → Bool := fun _ => false
  /-- in the wait queue -/
  queued : P → Bool := fun _ => false
  /-- `wake_up` has found the process in the wait queue -/
  triggered : P → Bool := fun _ => false

inductive Action (P : Type) where
  /-- the button is pressed -/
  | irq
  /-- the next statement of the handler -/
  | handler
  /-- `poll(2)` is called -/
  | enter (p : P)
  /-- the next statement of a call of `driver_poll` -/
  | poll (p : P)
  /-- a process that has been triggered calls `driver_poll` again -/
  | again (p : P)
  /-- a signal ends the wait -/
  | signal (p : P)
  deriving DecidableEq

section System

variable {P : Type} [DecidableEq P]

def step (g : State P) : Action P → Option (State P)
  | .irq => (Poll.step g.core .irq).map fun core => { g with core }
  | .handler => (Poll.step g.core .handler).map fun core =>
    -- `wake_up(&waitqueue)`
    if g.core.irq = .wake then { g with core, triggered := fun p => g.triggered p || g.queued p }
    else { g with core }
  | .enter p =>
    if g.waiting p then none
    else (Poll.step g.core (.call p)).map fun core =>
      { g with core, queued := upd g.queued p false, triggered := upd g.triggered p false }
  | .poll p => (Poll.step g.core (.poll p)).map fun core =>
    match g.core.poll p with
    | .wait => { g with core, queued := upd g.queued p true }
    | .leave false => { g with core, waiting := upd g.waiting p true }
    -- `poll(2)` returns, and leaves the wait queue
    | .leave true => { g with core, queued := upd g.queued p false }
    | _ => { g with core }
  | .again p =>
    if g.waiting p ∧ g.triggered p then
      (Poll.step g.core (.call p)).map fun core =>
        { g with core, waiting := upd g.waiting p false, triggered := upd g.triggered p false }
    else none
  | .signal p =>
    if g.waiting p then some { g with waiting := upd g.waiting p false, queued := upd g.queued p false } else none

/-- The process sleeps. -/
def State.Asleep (g : State P) (p : P) : Prop := g.waiting p = true ∧ g.triggered p = false

/-- A call of `driver_poll` that has been put into the wait queue. -/
def after : PollPc → Bool
  | .test | .clear | .leave _ => true
  | _ => false

/-- What the wait queue is good for. -/
structure Watched (g : State P) : Prop where
  queued : ∀ p, g.waiting p = true ∨ after (g.core.poll p) = true → g.queued p = true
  /-- between calls -/
  idle : ∀ p, g.waiting p = true → g.core.poll p = .idle
  /-- who has missed the flag will be woken up -/
  missed : ∀ p, g.waiting p = true ∨ g.core.poll p = .leave false → g.triggered p = false →
    g.core.irqReady = 1 → g.core.irq = .wake

variable {g g' : State P} {a : Action P}

theorem core_step (hs : step g a = some g') : g'.core = g.core ∨ ∃ b, Poll.step g.core b = some g'.core := by
  cases a with
  | irq =>
    obtain ⟨core, ran, rfl⟩ := Option.map_eq_some_iff.1 hs
    exact .inr ⟨_, ran⟩
  | handler =>
    obtain ⟨core, ran, rfl⟩ := Option.map_eq_some_iff.1 hs
    split <;> exact .inr ⟨_, ran⟩
  | enter p =>
    simp only [step] at hs
    split at hs
    · cases hs
    · obtain ⟨core, ran, rfl⟩ := Option.map_eq_some_iff.1 hs
      exact .inr ⟨_, ran⟩
  | poll p =>
    obtain ⟨core, ran, rfl⟩ := Option.map_eq_some_iff.1 hs
    split <;> exact .inr ⟨_, ran⟩
  | again p =>
    simp only [step] at hs
    split at hs
    · obtain ⟨core, ran, rfl⟩ := Option.map_eq_some_iff.1 hs
      exact .inr ⟨_, ran⟩
    · cases hs
  | signal p =>
    simp only [step] at hs
    split at hs <;> cases hs
    exact .inl rfl

/-- **Refinement.** The calls and the handler execute a run of `Kernel.Poll`. -/
theorem core_run (h : Reach step always {} g) : Reach Poll.step always {} g.core := by
  induction h with
  | start => exact .start
  | step _ _ hs ih =>
    rcases core_step hs with same | ⟨b, ran⟩
    · rw [same]
      exact ih
    · exact ih.step trivial ran

theorem Watched.irq (h : Watched g) (hs : step g .irq = some g') : Watched g' := by
  obtain ⟨core, ran, rfl⟩ := Option.map_eq_some_iff.1 hs
  simp only [Poll.step] at ran
  split at ran
  · next off =>
    cases ran
    refine ⟨h.queued, h.idle, fun p missed quiet ready => ?_⟩
    have wake := h.missed p missed quiet ready
    rw [off] at wake
    cases wake
  · cases ran

theorem Watched.handler (h : Watched g) (hs : step g .handler = some g') : Watched g' := by
  obtain ⟨core, ran, rfl⟩ := Option.map_eq_some_iff.1 hs
  simp only [Poll.step] at ran
  split at ran
  · cases ran
  · next pc =>
    cases ran
    rw [if_neg (by rw [pc]; decide)]
    refine ⟨h.queued, h.idle, fun p missed quiet ready => ?_⟩
    have wake := h.missed p missed quiet ready
    rw [pc] at wake
    cases wake
  · next pc =>
    cases ran
    rw [if_neg (by rw [pc]; decide)]
    exact ⟨h.queued, h.idle, fun _ _ _ _ => rfl⟩
  · next pc =>
    cases ran
    rw [if_pos pc]
    refine ⟨h.queued, h.idle, fun p missed quiet ready => ?_⟩
    -- whoever has missed the flag is in the wait queue
    have queued := h.queued p (missed.imp_right fun left => by
      have left : g.core.poll p = .leave false := left
      rw [left]
      rfl)
    simp [queued] at quiet

/-- What holds of one process. -/
structure WatchedAt (g : State P) (p : P) : Prop where
  queued : g.waiting p = true ∨ after (g.core.poll p) = true → g.queued p = true
  idle : g.waiting p = true → g.core.poll p = .idle
  missed : g.waiting p = true ∨ g.core.poll p = .leave false → g.triggered p = false →
    g.core.irqReady = 1 → g.core.irq = .wake

/-- One process moves, and does not set the flag. -/
theorem Watched.moves {p : P} (h : Watched g) (self : WatchedAt g' p)
    (others : ∀ q, q ≠ p → g'.core.poll q = g.core.poll q ∧ g'.waiting q = g.waiting q ∧ g'.queued q = g.queued q ∧
      g'.triggered q = g.triggered q)
    (ready : g'.core.irqReady = 1 → g.core.irqReady = 1) (irq : g'.core.irq = g.core.irq) : Watched g' := by
  have all : ∀ q, WatchedAt g' q := by
    intro q
    by_cases same : q = p
    · rw [same]
      exact self
    · obtain ⟨poll, waiting, queued, triggered⟩ := others q same
      refine ⟨?_, ?_, ?_⟩
      · rw [waiting, poll, queued]
        exact h.queued q
      · rw [waiting, poll]
        exact h.idle q
      · rw [waiting, poll, triggered, irq]
        exact fun missed quiet set => h.missed q missed quiet (ready set)
  exact ⟨fun q => (all q).queued, fun q => (all q).idle, fun q => (all q).missed⟩

theorem call_step {c c' : Poll.State P} {p : P} (ran : Poll.step c (.call p) = some c') : c' = c.goto p .wait := by
  simp only [Poll.step] at ran
  split at ran
  · exact (Option.some.inj ran).symm
  · cases ran

theorem Watched.enter {p : P} (h : Watched g) (hs : step g (.enter p) = some g') : Watched g' := by
  simp only [step] at hs
  split at hs
  · cases hs
  · next free =>
    obtain ⟨core, ran, rfl⟩ := Option.map_eq_some_iff.1 hs
    obtain rfl := call_step ran
    refine h.moves (p := p) ⟨?_, ?_, ?_⟩ (fun q other => ?_) id rfl
    · simp [free, after]
    · simp [free]
    · simp [free]
    · simp [Poll.goto_other other, upd_other _ _ other]

theorem Watched.again {p : P} (h : Watched g) (hs : step g (.again p) = some g') : Watched g' := by
  simp only [step] at hs
  split at hs
  · obtain ⟨core, ran, rfl⟩ := Option.map_eq_some_iff.1 hs
    obtain rfl := call_step ran
    refine h.moves (p := p) ⟨?_, ?_, ?_⟩ (fun q other => ?_) id rfl
    · simp [after]
    · simp
    · simp
    · simp [Poll.goto_other other, upd_other _ _ other]
  · cases hs

theorem Watched.signal {p : P} (h : Watched g) (hs : step g (.signal p) = some g') : Watched g' := by
  simp only [step] at hs
  split at hs
  · next waits =>
    cases hs
    have idle := h.idle p waits
    refine h.moves (p := p) ⟨?_, ?_, ?_⟩ (fun q other => ?_) id rfl
    · simp [idle, after]
    · simp
    · simp [idle]
    · simp [upd_other _ _ other]
  · cases hs

theorem Watched.poll {p : P} (h : Watched g) (hs : step g (.poll p) = some g') : Watched g' := by
  obtain ⟨core, ran, rfl⟩ := Option.map_eq_some_iff.1 hs
  have calls : g.core.poll p ≠ .idle → g.waiting p = false := by
    intro busy
    by_contra waits
    exact busy (h.idle p (by simpa using waits))
  have joined : after (g.core.poll p) = true → g.queued p = true := fun called => h.queued p (.inr called)
  have missed := h.missed p
  simp only [Poll.step] at ran
  cases pc : g.core.poll p with
  | idle =>
    rw [pc] at ran
    cases ran
  | wait =>
    rw [pc] at ran calls
    cases ran
    have free := calls (by decide)
    refine h.moves (p := p) ⟨?_, ?_, ?_⟩ (fun q other => ?_) id rfl
    · simp
    · simp [free]
    · simp [free]
    · simp [Poll.goto_other other, upd_other _ _ other]
  | test =>
    rw [pc] at ran calls joined
    cases ran
    have free := calls (by decide)
    have queued := joined rfl
    refine h.moves (p := p) ⟨?_, ?_, ?_⟩ (fun q other => ?_) id rfl
    · simp [queued]
    · simp [free]
    · -- the flag was not set
      intro left quiet ready
      have ready : g.core.irqReady = 1 := ready
      simp [free, ready] at left
    · simp [Poll.goto_other other]
  | clear =>
    rw [pc] at ran calls joined
    cases ran
    have free := calls (by decide)
    have queued := joined rfl
    have unset : ¬ (0 : Int) = 1 := by decide
    refine h.moves (p := p) ⟨?_, ?_, ?_⟩ (fun q other => ?_) (fun ready => absurd ready unset) rfl
    · simp [queued]
    · simp [free]
    · exact fun _ _ ready => absurd ready unset
    · exact ⟨Poll.goto_other other, rfl, rfl, rfl⟩
  | leave r =>
    rw [pc] at ran calls joined missed
    cases ran
    have free := calls (by simp)
    have queued := joined rfl
    have idle : (g.core.goto p .idle).poll p = .idle := Poll.goto_self
    cases r with
    | false =>
      refine h.moves (p := p) ⟨?_, ?_, ?_⟩ (fun q other => ?_) id rfl
      · simp [queued]
      · exact fun _ => idle
      · exact fun _ => missed (.inr rfl)
      · exact ⟨Poll.goto_other other, upd_other _ _ other, rfl, rfl⟩
    | true =>
      have out : ¬ (g.waiting p = true ∨ after ((g.core.goto p .idle).poll p) = true) := by simp [free, after]
      have out' : ¬ (g.waiting p = true ∨ (g.core.goto p .idle).poll p = .leave false) := by simp [free]
      refine h.moves (p := p) ⟨?_, ?_, ?_⟩ (fun q other => ?_) id rfl
      · exact fun in_ => absurd in_ out
      · simp [free]
      · exact fun in_ => absurd in_ out'
      · exact ⟨Poll.goto_other other, rfl, upd_other _ _ other, rfl⟩

theorem watched (h : Reach step always {} g) : Watched g := by
  refine h.invariant ⟨fun p start => ?_, fun p waits => ?_, fun p missed => ?_⟩ fun g a g' inv _ hs => ?_
  · rcases start with waits | called
    · cases waits
    · cases called
  · cases waits
  · rcases missed with waits | called
    · cases waits
    · cases called
  · cases a with
    | irq => exact inv.irq hs
    | handler => exact inv.handler hs
    | enter p => exact inv.enter hs
    | poll p => exact inv.poll hs
    | again p => exact inv.again hs
    | signal p => exact inv.signal hs

/-- `wake_up` leaves nobody asleep. -/
theorem nobody_asleep (inv : Watched g) (wake : g.core.irq = .wake) :
    ∃ g', step g .handler = some g' ∧ ∀ p, ¬ g'.Asleep p := by
  have next : step g .handler =
      some { g with core := { g.core with irq := .off }, triggered := fun p => g.triggered p || g.queued p } := by
    simp [step, Poll.step, wake]
  refine ⟨_, next, fun p asleep => ?_⟩
  have queued := inv.queued p (.inl asleep.1)
  have quiet : (g.triggered p || g.queued p) = false := asleep.2
  simp [queued] at quiet

end System

/-- **Sleepers are woken up.** Under every schedule the calls of `driver_poll` and the
handler execute a run of `Kernel.Poll`, and a process sleeps in `poll(2)` with the flag set
only while the handler is about to execute `wake_up`, which leaves nobody asleep. So while
an interrupt has fired and nobody has got `POLLIN` since, either nobody sleeps, or that
`wake_up` is next, or a call of `driver_poll` is about to return `POLLIN`. -/
theorem sleepers_woken {P : Type} [DecidableEq P] {g : State P} (h : Reach step always {} g) :
    Reach Poll.step always {} g.core ∧
    (∀ p, g.Asleep p → g.core.irqReady = 1 → g.core.irq = .wake) ∧
    (g.core.irq = .wake → ∃ g', step g .handler = some g' ∧ ∀ p, ¬ g'.Asleep p) ∧
    (g.core.pending = true → ∀ p, g.Asleep p → g.core.irq = .wake ∨ ∃ q, (g.core.poll q).passed = true) := by
  have inv := watched h
  have run := core_run h
  have woken : ∀ p, g.Asleep p → g.core.irqReady = 1 → g.core.irq = .wake := fun p asleep ready =>
    inv.missed p (.inl asleep.1) asleep.2 ready
  refine ⟨run, woken, nobody_asleep inv, fun pending p asleep => ?_⟩
  rcases Poll.kept run pending with ready | delivering
  · exact .inl (woken p asleep ready)
  · exact .inr delivering

/-- The button is pressed while a process sleeps. -/
def pressed : List (Action Unit) :=
  [.enter (), .poll (), .poll (), .poll (), .irq, .handler, .handler]

theorem pressed_woken : ∃ g : State Unit, g.Asleep () ∧ g.core.pending = true ∧
    ∃ g', step g .handler = some g' ∧ ∀ p, ¬ g'.Asleep p := by
  obtain ⟨g, run, waiting, triggered, pending, ready⟩ := exists_reach step always
    (fun g => g.waiting () = true ∧ g.triggered () = false ∧ g.core.pending = true ∧ g.core.irqReady = 1)
    ({} : State Unit) pressed (by decide)
  obtain ⟨-, woken, wakes, -⟩ := sleepers_woken run
  exact ⟨g, ⟨waiting, triggered⟩, pending, wakes (woken () ⟨waiting, triggered⟩ ready)⟩

end Beaglebone.Kernel.PollWait
