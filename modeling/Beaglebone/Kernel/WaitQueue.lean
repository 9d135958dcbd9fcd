import Mathlib.Data.Fintype.Basic
import Mathlib.Tactic.Common
import Beaglebone.Machine.Run

/-!
# `kernel/014_waitqueue`: one variable, two consumers

Any number of `driver_write` calls and the loops of the two threads, statement by
statement, while the module is not being unloaded. A thread tests `watch_var` and
clears it in two steps, with a `printk` between them; a value that arrives in
between is cleared whoever it was for. Without such a write, a value is cleared
only by the thread it wakes up (`reset_by_owner`).
-/

namespace Beaglebone.Kernel.WaitQueue

open Machine

inductive Thread where
  | one
  | two
  deriving DecidableEq, Repr

/-- `WAKE_UP_THREAD1` and `WAKE_UP_THREAD2` -/
def Thread.value : Thread → Int
  | .one => 11
  | .two => 22

def Thread.other : Thread → Thread
  | .one => .two
  | .two => .one

/-- The statement of `thread_function` that is next. -/
inductive ThreadPc where
  /-- the condition of `wait_event_…` is evaluated -/
  | test
  /-- in the wait queue -/
  | asleep
  /-- `printk("… Timeout reached!")` -/
  | timedOut
  /-- `printk("… User input was …")` -/
  | print
  /-- `watch_var = 0` -/
  | clear
  deriving DecidableEq, Repr

/-- Between a test that succeeded and the assignment that follows it. -/
def ThreadPc.passed : ThreadPc → Bool
  | .print | .clear => true
  | _ => false

/-- The statement of a `driver_write` call that is next. -/
inductive WriterPc where
  | idle
  /-- `kstrtol(buffer, BASE_10, &watch_var)` -/
  | convert
  /-- `printk("Watch var is now …")` -/
  | report
  /-- `wake_up_interruptible(&waitqueue1)` -/
  | wake1
  /-- `wake_up_interruptible(&waitqueue2)` -/
  | wake2
  deriving DecidableEq, Repr

structure State (P : Type) where
  watchVar : Int := 0
  thread : Thread → ThreadPc := fun _ => .test
  writer : P → WriterPc := fun _ => .idle

inductive Action (P : Type) where
  /-- the next statement of a thread -/
  | thread (t : Thread)
  /-- the 5 s of the second thread's wait are over -/
  | elapse
  /-- begin a call of `driver_write` -/
  | write (p : P)
  /-- the next statement of a call; `r` is what `kstrtol` makes of the buffer,
  nothing on an error -/
  | writer (p : P) (r : Option Int)
  deriving DecidableEq

namespace State

variable {P : Type}

def goto (g : State P) (t : Thread) (pc : ThreadPc) : State P := { g with thread := upd g.thread t pc }

/-- `wake_up_interruptible` on the queue of `t`. -/
def wake (g : State P) (t : Thread) : State P := if g.thread t = .asleep then g.goto t .test else g

/-- `watch_var == WAKE_UP_THREAD…` -/
def awaited (g : State P) (t : Thread) : Bool := g.watchVar = t.value

end State

section Moves

variable {P : Type} {g : State P} {t u : Thread} {pc : ThreadPc}

@[simp] theorem other_other (t : Thread) : t.other.other = t := by cases t <;> rfl

theorem value_ne_other (t : Thread) : t.value ≠ t.other.value := by cases t <;> decide

theorem value_ne_zero (t : Thread) : t.value ≠ 0 := by cases t <;> decide

theorem eq_or_eq_other (t u : Thread) : u = t ∨ u = t.other := by
  cases t <;> cases u <;> simp [Thread.other]

/-- A thread is past its test after a move if it has just been brought there, or
was there before. -/
theorem passed_goto (h : ((g.goto t pc).thread u).passed = true) :
    (u = t ∧ pc.passed = true) ∨ (g.thread u).passed = true := by
  change (upd g.thread t pc u).passed = true at h
  by_cases same : u = t
  · subst same
    rw [upd_same] at h
    exact .inl ⟨rfl, h⟩
  · rw [upd_other _ _ same] at h
    exact .inr h

theorem passed_wake (h : ((g.wake t).thread u).passed = true) : (g.thread u).passed = true := by
  unfold State.wake at h
  split at h
  · rcases passed_goto h with ⟨-, new⟩ | old
    · cases new
    · exact old
  · exact h

theorem wake_watchVar : (g.wake t).watchVar = g.watchVar := by
  unfold State.wake
  split <;> rfl

/-- The outcome of a test. -/
theorem passed_test (quiet : pc.passed = false)
    (h : ((g.goto t (if g.awaited t then .print else pc)).thread u).passed = true) :
    (g.thread u).passed = true ∨ g.watchVar = u.value := by
  rcases passed_goto h with ⟨rfl, new⟩ | old
  · cases awaited : g.awaited u with
    | true => exact .inr (of_decide_eq_true awaited)
    | false =>
      rw [awaited] at new
      rw [if_neg (by decide), quiet] at new
      cases new
  · exact .inl old

end Moves

section System

variable {P : Type} [DecidableEq P]

def step (g : State P) : Action P → Option (State P)
  | .thread t => match g.thread t with
    | .test => some (g.goto t (if g.awaited t then .print else .asleep))
    | .asleep => none
    | .timedOut => some (g.goto t .test)
    | .print => some (g.goto t .clear)
    | .clear => some { g.goto t .test with watchVar := 0 }
  -- a wait that has elapsed still returns non-zero if the condition holds
  | .elapse => match g.thread .two with
    | .asleep => some (g.goto .two (if g.awaited .two then .print else .timedOut))
    | _ => none
  | .write p => match g.writer p with
    | .idle => some { g with writer := upd g.writer p .convert }
    | _ => none
  | .writer p r => match g.writer p with
    | .idle => none
    | .convert => some { g with watchVar := r.getD g.watchVar, writer := upd g.writer p .report }
    | .report => some { g with writer := upd g.writer p .wake1 }
    | .wake1 => some { g.wake .one with writer := upd g.writer p .wake2 }
    | .wake2 => some { g.wake .two with writer := upd g.writer p .idle }

/-- No `driver_write` stores a thread's value while the other thread stands between
its test and its assignment. -/
def Timely (g : State P) : Action P → Prop
  | .writer p (some v) => g.writer p = .convert → ∀ t : Thread, v = t.value → (g.thread t.other).passed = false
  | _ => True

instance : Fintype Thread := ⟨{.one, .two}, fun t => by cases t <;> decide⟩

instance (g : State P) : (a : Action P) → Decidable (Timely g a)
  | .writer p (some v) => inferInstanceAs (Decidable
      (g.writer p = .convert → ∀ t : Thread, v = t.value → (g.thread t.other).passed = false))
  | .writer _ none | .thread _ | .elapse | .write _ => .isTrue trivial

/-- What a step does to `watch_var` and to one thread's position: a write, the
thread's own assignment, or a move that neither changes the variable nor brings a
thread past its test without the awaited value. -/
theorem step_cases {g g' : State P} {a : Action P} (hs : step g a = some g') :
    (∃ p v, a = .writer p (some v) ∧ g.writer p = .convert ∧ g'.watchVar = v ∧ g'.thread = g.thread) ∨
    (∃ t, a = .thread t ∧ (g.thread t).passed = true ∧ g'.watchVar = 0 ∧
      g'.thread = upd g.thread t .test) ∨
    (g'.watchVar = g.watchVar ∧
      ∀ t, (g'.thread t).passed = true → (g.thread t).passed = true ∨ g.watchVar = t.value) := by
  cases a with
  | thread t =>
    simp only [step] at hs
    split at hs
    · cases hs
      exact .inr (.inr ⟨rfl, fun u h => passed_test rfl h⟩)
    · cases hs
    · cases hs
      refine .inr (.inr ⟨rfl, fun u h => ?_⟩)
      rcases passed_goto h with ⟨-, new⟩ | old
      · cases new
      · exact .inl old
    · next pc =>
      cases hs
      refine .inr (.inr ⟨rfl, fun u h => .inl ?_⟩)
      rcases passed_goto h with ⟨rfl, -⟩ | old
      · rw [pc]; rfl
      · exact old
    · next pc =>
      cases hs
      exact .inr (.inl ⟨t, rfl, by rw [pc]; rfl, rfl, rfl⟩)
  | elapse =>
    simp only [step] at hs
    split at hs
    · cases hs
      exact .inr (.inr ⟨rfl, fun u h => passed_test rfl h⟩)
    · cases hs
  | write p =>
    simp only [step] at hs
    split at hs <;> cases hs
    exact .inr (.inr ⟨rfl, fun u h => .inl h⟩)
  | writer p r =>
    simp only [step] at hs
    split at hs
    · cases hs
    · next pc =>
      cases hs
      cases r with
      | none => exact .inr (.inr ⟨rfl, fun u h => .inl h⟩)
      | some v => exact .inl ⟨p, v, rfl, pc, rfl, rfl⟩
    · cases hs
      exact .inr (.inr ⟨rfl, fun u h => .inl h⟩)
    · cases hs
      exact .inr (.inr ⟨wake_watchVar, fun u h => .inl (passed_wake h)⟩)
    · cases hs
      exact .inr (.inr ⟨wake_watchVar, fun u h => .inl (passed_wake h)⟩)

/-! ## Values and their owners -/

/-- The invariant: a thread past its test does not find the other one's value. -/
def Owned (g : State P) : Prop := ∀ t, (g.thread t).passed = true → g.watchVar ≠ t.other.value

theorem Owned.step {g g' : State P} {a : Action P} (h : Owned g) (timely : Timely g a)
    (hs : step g a = some g') : Owned g' := by
  intro t passed
  rcases step_cases hs with ⟨p, v, rfl, pc, value, same⟩ | ⟨u, rfl, -, value, -⟩ | ⟨value, before⟩
  · intro forOther
    have quiet := timely pc t.other (value.symm.trans forOther)
    rw [other_other, ← same, passed] at quiet
    cases quiet
  · rw [value]
    exact (value_ne_zero t.other).symm
  · rw [value]
    rcases before t passed with old | own
    · exact h t old
    · rw [own]
      exact value_ne_other t

/-- **No value is lost to the other thread**, in every run whose writes are timely: a
step that takes a thread's value out of `watch_var` is that thread's own, or a
later write. -/
theorem reset_by_owner {g g' : State P} {a : Action P} {t : Thread} (h : Reach step Timely {} g)
    (hv : g.watchVar = t.value) (hs : step g a = some g') (changed : g'.watchVar ≠ t.value) :
    a = .thread t ∨ ∃ p v, a = .writer p (some v) ∧ g.writer p = .convert := by
  have owned : Owned g := h.invariant (fun t passed => by cases t <;> cases passed)
    fun _ _ _ hi ok hs => hi.step ok hs
  rcases step_cases hs with ⟨p, v, rfl, pc, -, -⟩ | ⟨u, rfl, passed, -, -⟩ | ⟨value, -⟩
  · exact .inr ⟨p, v, rfl, pc⟩
  · rcases eq_or_eq_other t u with rfl | rfl
    · exact .inl rfl
    · have lost := owned t.other passed
      rw [other_other] at lost
      exact absurd hv lost
  · exact absurd (value.trans hv) changed

end System

/-- The first thread finds its value, and is about to clear it. -/
def handled : List (Action Unit) :=
  [.thread .one, .write (), .writer () (some 11), .writer () none, .writer () none, .thread .one, .thread .one]

theorem handled_by_owner : ∃ (g g' : State Unit) (a : Action Unit), step g a = some g' ∧
    g.watchVar = Thread.one.value ∧ g'.watchVar = 0 ∧
    (a = .thread .one ∨ ∃ p v, a = .writer p (some v) ∧ g.writer p = .convert) := by
  obtain ⟨g, run, value, pc⟩ := exists_reach step Timely
    (fun g => g.watchVar = Thread.one.value ∧ g.thread .one = .clear) ({} : State Unit) handled (by decide)
  have cleared : step g (.thread .one) = some { g.goto .one .test with watchVar := 0 } := by simp [step, pc]
  have changed : (0 : Int) ≠ Thread.one.value := by decide
  exact ⟨g, _, _, cleared, value, rfl, reset_by_owner run value cleared changed⟩

/-- A second write arrives before the first thread's assignment. -/
def overtaken : List (Action Bool) :=
  [.write false, .writer false (some 11), .thread .one, .write true, .writer true (some 22), .thread .one]

/-- The first thread clears 22. -/
theorem overtaken_loses_value : ¬ ∀ (g g' : State Bool) (a : Action Bool) (t : Thread), Reach step always {} g →
    g.watchVar = t.value → step g a = some g' → g'.watchVar ≠ t.value →
    a = .thread t ∨ ∃ p v, a = .writer p (some v) ∧ g.writer p = .convert := by
  intro owner
  obtain ⟨g, run, value, pc⟩ := exists_reach step always
    (fun g => g.watchVar = Thread.two.value ∧ g.thread .one = .clear) ({} : State Bool) overtaken (by decide)
  have cleared : step g (.thread .one) = some { g.goto .one .test with watchVar := 0 } := by simp [step, pc]
  have changed : (0 : Int) ≠ Thread.two.value := by decide
  rcases owner g _ _ .two run value cleared changed with other | ⟨p, v, write, -⟩
  · cases other
  · cases write

end Beaglebone.Kernel.WaitQueue
