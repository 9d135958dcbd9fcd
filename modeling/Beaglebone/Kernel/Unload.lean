import Beaglebone.Kernel.WaitQueue
import Beaglebone.Machine.Kthread
import Beaglebone.Machine.Word

/-!
# Stopping the threads of `kernel/011_threads` and `kernel/014_waitqueue`

The two thread functions from their first statement to their last, with the exit
function that stops them; of the second module also the calls of `driver_write` through
any number of open files. In every run each thread returns soon after it is told to, the
exit function returns, and nothing of the module runs afterwards (`threads_unload`); and
no thread of the second module sleeps through a wake-up, that of `kthread_stop` included
(`no_lost_wakeup`).
-/

namespace Beaglebone.Kernel.Unload

open Machine
open WaitQueue (Thread WriterPc)

/-! ## `kernel/011_threads` -/

/-- The statement of `thread_function` that is next. -/
inductive CounterPc where
  /-- `while(!kthread_should_stop())` -/
  | head
  /-- `printk("… Counter: %d", …, i++)` -/
  | print
  /-- `msleep(thread_number * 1000)`, which no wake-up cuts short -/
  | msleep
  /-- `printk("… finished execution")` -/
  | finish
  | returned
  deriving DecidableEq, Repr

structure Counter where
  pc : CounterPc := .head
  i : U32 := 0
  deriving DecidableEq, Repr

def counterRun (stop : Bool) (l : Counter) : Option Counter :=
  match l.pc with
  | .head => some { l with pc := if stop then .finish else .print }
  | .print => some { pc := .msleep, i := l.i + 1 }
  | .msleep => some { l with pc := .head }
  | .finish => some { l with pc := .returned }
  | .returned => none

/-- `kernel/011_threads`: the threads share nothing, and there are no file operations. -/
def threads : Kthreads Thread Counter Unit Unit Empty where
  run _ stop l s _ := (counterRun stop l).map (·, s)
  wake l := l
  done l := l.pc = .returned
  env _ _ e := nomatch e
  idle _ := true
  stops := [.one, .two]

/-! ## `kernel/014_waitqueue` -/

/-- The statement of `thread_function` that is next. -/
inductive WaiterPc where
  /-- `while(!kthread_should_stop())` -/
  | head
  /-- the condition of `wait_event_…` is evaluated -/
  | test
  /-- in the wait queue -/
  | asleep
  /-- `printk("… Timeout reached!")` -/
  | timedOut
  /-- `printk("… User input was …")` -/
  | print
  /-- `watch_var = 0` -/
  | clear
  /-- `printk("… exiting!")` -/
  | exiting
  | returned
  deriving DecidableEq, Repr

/-- The state that the threads share with the calls of `driver_write`. -/
structure Shared (P : Type) where
  watchVar : Int := 0
  /-- the processes that have the device open -/
  files : List P := []
  writer : P → WriterPc := fun _ => .idle

inductive Input where
  | go
  /-- the 5 s of the second thread's wait are over -/
  | elapse
  deriving DecidableEq, Repr

inductive Env (P : Type) where
  | «open» (p : P)
  | close (p : P)
  /-- begin a call of `driver_write` -/
  | write (p : P)
  /-- the next statement of a call; `r` is what `kstrtol` makes of the buffer, nothing on
  an error -/
  | writer (p : P) (r : Option Int)
  deriving DecidableEq

section Code

variable {P : Type} [DecidableEq P]

/-- The condition of `wait_event_…` -/
def awaits (t : Thread) (stop : Bool) (s : Shared P) : Bool := s.watchVar = t.value || stop

def waiterRun (t : Thread) (stop : Bool) (l : WaiterPc) (s : Shared P) : Input → Option (WaiterPc × Shared P)
  | .go => match l with
    | .head => some (if stop then .exiting else .test, s)
    | .test => some (if awaits t stop s then .print else .asleep, s)
    | .timedOut => some (.head, s)
    | .print => some (.clear, s)
    | .clear => some (.head, { s with watchVar := 0 })
    | .exiting => some (.returned, s)
    | .asleep | .returned => none
  -- a wait that has elapsed still returns non-zero if the condition holds
  | .elapse => match t, l with
    | .two, .asleep => some (if awaits .two stop s then .print else .timedOut, s)
    | _, _ => none

/-- The file operations. A call that is executed has its file open, and the kernel opens no
file of a module that is being unloaded. -/
def fileOperation (loaded : Bool) (s : Shared P) : Env P → Option (Shared P × (Thread → Bool))
  | .open p => if loaded ∧ p ∉ s.files then some ({ s with files := p :: s.files }, fun _ => false) else none
  | .close p => if p ∈ s.files ∧ s.writer p = .idle then some ({ s with files := s.files.erase p }, fun _ => false)
    else none
  | .write p => if p ∈ s.files ∧ s.writer p = .idle then
      some ({ s with writer := upd s.writer p .convert }, fun _ => false) else none
  | .writer p r => if p ∉ s.files then none else match s.writer p with
    | .idle => none
    | .convert => some ({ s with watchVar := r.getD s.watchVar, writer := upd s.writer p .report }, fun _ => false)
    | .report => some ({ s with writer := upd s.writer p .wake1 }, fun _ => false)
    | .wake1 => some ({ s with writer := upd s.writer p .wake2 }, fun t => t = .one)
    | .wake2 => some ({ s with writer := upd s.writer p .idle }, fun t => t = .two)

/-- `kernel/014_waitqueue` -/
def waitqueue (P : Type) [DecidableEq P] : Kthreads Thread WaiterPc (Shared P) Input (Env P) where
  run := waiterRun
  wake l := if l = .asleep then .test else l
  done l := l = .returned
  env := fileOperation
  idle s := s.files.isEmpty
  stops := [.one, .two]

end Code

/-! ## Unloading -/

/-- The statements of a thread of `kernel/011_threads` until it returns. -/
def counterRank (l : Counter) : Nat :=
  match l.pc with
  | .print => 4
  | .msleep => 3
  | .head => 2
  | .finish => 1
  | .returned => 0

def waiterRank : WaiterPc → Nat
  | .asleep => 6
  | .test => 5
  | .print => 4
  | .clear | .timedOut => 3
  | .head => 2
  | .exiting => 1
  | .returned => 0

theorem threads_cooperate : Cooperates threads (fun _ => counterRank) fun _ => false := by
  refine ⟨fun {k l s i m} ran => ?_, fun _ => rfl, fun {k b l s i} done => ?_, fun {k b l s} more _ => ?_, fun _ => rfl,
    fun _ _ => Nat.le_refl _, fun done => done, fun _ => rfl, fun {s e} => nomatch e⟩
  · obtain ⟨l', here, rfl⟩ := Option.map_eq_some_iff.1 ran
    unfold counterRun at here
    split at here <;> cases here <;> simp [counterRank, *]
  · have returned : l.pc = .returned := of_decide_eq_true done
    simp [threads, counterRun, returned]
  · refine ⟨(), ?_⟩
    cases pc : l.pc <;> simp_all [threads, counterRun]

section Waitqueue

variable {P : Type}

/-- What a statement of a thread does, by its position. -/
theorem waiterRun_cases {t : Thread} {stop : Bool} {l : WaiterPc} {s : Shared P} {i : Input}
    {m : WaiterPc × Shared P} (ran : waiterRun t stop l s i = some m) :
    (l = .clear ∧ m = (.head, { s with watchVar := 0 })) ∨ m.2 = s ∧
      (l = .head ∧ m.1 = (if stop then .exiting else .test) ∨
      l = .test ∧ m.1 = (if awaits t stop s then .print else .asleep) ∨
      l = .asleep ∧ t = .two ∧ m.1 = (if awaits t stop s then .print else .timedOut) ∨
      l = .timedOut ∧ m.1 = .head ∨ l = .print ∧ m.1 = .clear ∨ l = .exiting ∧ m.1 = .returned) := by
  unfold waiterRun at ran
  cases i with
  | go => cases l <;> cases ran <;> simp
  | elapse => cases t <;> cases l <;> cases ran; simp

theorem awaits_stop (t : Thread) (s : Shared P) : awaits t true s = true := by simp [awaits]

variable [DecidableEq P]

theorem fileOperation_closed {s : Shared P} (closed : s.files = []) (e : Env P) : fileOperation false s e = none := by
  cases e <;> simp [fileOperation, closed]

theorem waitqueue_cooperates : Cooperates (waitqueue P) (fun _ => waiterRank) (· = .asleep) := by
  constructor
  case descends =>
    intro k l s i m ran
    rcases waiterRun_cases ran with ⟨rfl, rfl⟩ | ⟨-, ⟨rfl, next⟩ | ⟨rfl, next⟩ | ⟨rfl, -, next⟩ | ⟨rfl, next⟩ |
      ⟨rfl, next⟩ | ⟨rfl, next⟩⟩
    · simp [waiterRank]
    all_goals simp [next, awaits_stop, waiterRank]
  case awake =>
    intro k l s i m ran
    rcases waiterRun_cases ran with ⟨-, rfl⟩ | ⟨-, ⟨-, next⟩ | ⟨-, next⟩ | ⟨-, -, next⟩ | ⟨-, next⟩ | ⟨-, next⟩ |
      ⟨-, next⟩⟩
    · rfl
    all_goals simp [next, awaits_stop]
  case ends =>
    intro k b l s i done
    have returned : l = .returned := of_decide_eq_true done
    subst returned
    cases k <;> cases i <;> rfl
  case live =>
    intro k b l s more up
    have running : l ≠ .returned := of_decide_eq_false more
    have awake : l ≠ .asleep := of_decide_eq_false up
    refine ⟨.go, ?_⟩
    cases l <;> simp_all [waitqueue, waiterRun]
  case woken =>
    intro l
    cases l <;> rfl
  case wake_rank =>
    intro _ l
    cases l <;> simp [waitqueue, waiterRank]
  case wake_done =>
    intro l done
    have returned : l = .returned := of_decide_eq_true done
    subst returned
    rfl
  case keeps =>
    intro k b l s i m ran
    rcases waiterRun_cases ran with ⟨-, rfl⟩ | ⟨same, -⟩
    · rfl
    · exact congrArg (waitqueue P).idle same
  case quiet =>
    intro s e idle
    exact fileOperation_closed (List.isEmpty_iff.1 idle) e

/-- **The threads are stopped.** Under every schedule each thread of the two modules
executes at most four or six statements after it is told to stop, the exit function
executes at most seven and is never stuck, and nothing of the module runs once it has
returned. -/
theorem threads_unload : Unloads threads 4 { thread := fun _ => {}, shared := () } ∧
    Unloads (waitqueue P) 6 { thread := fun _ => .head, shared := {} } := by
  have both : ∀ t : Thread, t ∈ [Thread.one, Thread.two] := fun t => by cases t <;> decide
  constructor
  · refine threads_cooperate.unloads (fun _ l => ?_) both rfl fun _ => rfl
    unfold counterRank
    split <;> decide
  · refine waitqueue_cooperates.unloads (fun _ l => ?_) both rfl fun _ => rfl
    cases l <;> decide

/-! ## Wake-ups -/

/-- A call of `driver_write` at this statement still wakes up `t`. -/
def Wakes (t : Thread) : WriterPc → Bool
  | .report | .wake1 => true
  | .wake2 => t = .two
  | _ => false

/-- Somebody is about to wake up each thread that sleeps though its value is there. -/
def Attended (g : Threads Thread WaiterPc (Shared P)) : Prop :=
  ∀ t, g.thread t = .asleep → g.shared.watchVar = t.value → ∃ p ∈ g.shared.files, Wakes t (g.shared.writer p) = true

variable {g g' : Threads Thread WaiterPc (Shared P)} {t : Thread}

omit [DecidableEq P] in
/-- A thread falls asleep only if what it waits for is not there. -/
theorem falls_asleep {stop : Bool} {l : WaiterPc} {s s' : Shared P} {i : Input}
    (ran : waiterRun t stop l s i = some (.asleep, s')) : s'.watchVar ≠ t.value := by
  rcases waiterRun_cases ran with ⟨-, moved⟩ | ⟨same, ⟨-, next⟩ | ⟨-, next⟩ | ⟨-, -, next⟩ | ⟨-, next⟩ | ⟨-, next⟩ |
    ⟨-, next⟩⟩
  · cases moved
  · split at next <;> cases next
  · split at next
    · cases next
    · next idle =>
      have same : s' = s := same
      subst same
      intro value
      simp [awaits, value] at idle
  · split at next <;> cases next
  all_goals cases next

theorem Attended.thread {k : Thread} {i : Input} (h : Attended g) (hs : (waitqueue P).step g (.thread k i) = some g') :
    Attended g' := by
  obtain ⟨l, s, ran, rfl⟩ := Kthreads.step_thread hs
  intro t sleeps value
  by_cases mine : t = k
  · subst mine
    simp only [upd_same] at sleeps
    subst sleeps
    exact absurd value (falls_asleep ran)
  · simp only [upd_other _ _ mine] at sleeps
    rcases waiterRun_cases ran with ⟨-, moved⟩ | ⟨same, -⟩
    · cases moved
      exact absurd value.symm (WaitQueue.value_ne_zero t)
    · have same : s = g.shared := same
      subst same
      exact h t sleeps value

theorem Attended.env {e : Env P} (h : Attended g) (hs : (waitqueue P).step g (.env e) = some g') : Attended g' := by
  obtain ⟨⟨s, woken⟩, ran, rfl⟩ := Option.map_eq_some_iff.1 hs
  intro t sleeps value
  have still : g.thread t = .asleep ∧ woken t = false := by
    cases up : woken t with
    | true =>
      have awake := (waitqueue_cooperates (P := P)).woken (g.thread t)
      simp [up] at sleeps
      simp [sleeps] at awake
    | false => exact ⟨by simpa [up] using sleeps, rfl⟩
  -- the call that was about to wake up `t`, unless it is the one that runs
  have others : ∀ p pc, g.shared.watchVar = t.value → Wakes t (g.shared.writer p) = false →
      ∃ q ∈ g.shared.files, Wakes t (upd g.shared.writer p pc q) = true ∧ q ≠ p := by
    intro p pc before quiet
    obtain ⟨q, mem, wakes⟩ := h t still.1 before
    have other : q ≠ p := by
      rintro rfl
      rw [quiet] at wakes
      cases wakes
    exact ⟨q, mem, by rw [upd_other _ _ other]; exact wakes, other⟩
  cases e with
  | «open» p =>
    simp only [waitqueue, fileOperation] at ran
    split at ran <;> cases ran
    obtain ⟨q, mem, wakes⟩ := h t still.1 value
    exact ⟨q, List.mem_cons_of_mem _ mem, wakes⟩
  | close p =>
    simp only [waitqueue, fileOperation] at ran
    split at ran
    · next pc =>
      cases ran
      obtain ⟨q, mem, wakes, other⟩ := others p .idle value (by rw [pc.2]; rfl)
      rw [upd_other _ _ other] at wakes
      exact ⟨q, (List.mem_erase_of_ne other).2 mem, wakes⟩
    · cases ran
  | write p =>
    simp only [waitqueue, fileOperation] at ran
    split at ran
    · next pc =>
      cases ran
      obtain ⟨q, mem, wakes, -⟩ := others p _ value (by rw [pc.2]; rfl)
      exact ⟨q, mem, wakes⟩
    · cases ran
  | writer p r =>
    simp only [waitqueue, fileOperation] at ran
    split at ran
    · cases ran
    next opened =>
    have mem : p ∈ g.shared.files := not_not.1 opened
    split at ran
    · cases ran
    · cases ran
      exact ⟨p, mem, by simp [Wakes]⟩
    · cases ran
      exact ⟨p, mem, by simp [Wakes]⟩
    · cases ran
      have second : t = .two := (WaitQueue.eq_or_eq_other .one t).resolve_left (of_decide_eq_false still.2)
      exact ⟨p, mem, by simp [Wakes, second]⟩
    · next pc =>
      cases ran
      have first : t ≠ .two := of_decide_eq_false still.2
      obtain ⟨q, mem, wakes, -⟩ := others p _ value (by rw [pc]; simpa [Wakes] using first)
      exact ⟨q, mem, wakes⟩

theorem Attended.step {a : ThreadAct Thread Input (Env P)} (h : Attended g)
    (hs : (waitqueue P).step g a = some g') : Attended g' := by
  cases a with
  | thread k i => exact h.thread hs
  | env e => exact h.env hs
  | exit =>
    cases Kthreads.step_exit hs with
    | begin | flag | join => exact h
    | @wake k rest pc =>
      intro t sleeps value
      by_cases mine : t = k
      · subst mine
        have awake := (waitqueue_cooperates (P := P)).woken (g.thread t)
        simp only [upd_same] at sleeps
        simp [sleeps] at awake
      · simp only [upd_other _ _ mine] at sleeps
        exact h t sleeps value

/-- The module as it has been loaded, with its threads running. -/
def loaded : Threads Thread WaiterPc (Shared P) := { thread := fun _ => .head, shared := {} }

/-- **No wake-up is lost.** In every run, if a thread sleeps though its value is in
`watch_var` or it has been told to stop, a call of `driver_write` or `kthread_stop` is
about to wake it up. -/
theorem no_lost_wakeup (h : Reach (waitqueue P).step always loaded g) (sleeps : g.thread t = .asleep)
    (due : awaits t (g.stopping t) g.shared = true) :
    (∃ p ∈ g.shared.files, Wakes t (g.shared.writer p) = true) ∨ ∃ rest, g.exit = .wake t rest := by
  have start : Attended (loaded : Threads Thread WaiterPc (Shared P)) := by
    intro t sleeps
    cases sleeps
  have attended : Attended g := h.invariant start fun _ _ _ inv _ hs => inv.step hs
  have stopped := waitqueue_cooperates.stopped rfl (fun _ => rfl) h
  simp only [awaits, Bool.or_eq_true, decide_eq_true_eq] at due
  rcases due with value | flag
  · exact .inl (attended t sleeps value)
  · exact .inr (stopped.sleeper t flag (by simpa using sleeps))

/-! ## The loops alone -/

/-- The position in the loop, without its head. -/
def WaiterPc.inLoop : WaiterPc → WaitQueue.ThreadPc
  | .head | .test | .exiting | .returned => .test
  | .asleep => .asleep
  | .timedOut => .timedOut
  | .print => .print
  | .clear => .clear

/-- What `WaitQueue` has of the module. -/
def loops (g : Threads Thread WaiterPc (Shared P)) : WaitQueue.State P where
  watchVar := g.shared.watchVar
  thread t := (g.thread t).inLoop
  writer := g.shared.writer

theorem inLoop_upd (f : Thread → WaiterPc) (k : Thread) (l : WaiterPc) :
    (fun t => (upd f k l t).inLoop) = upd (fun t => (f t).inLoop) k l.inLoop := by
  funext t
  by_cases same : t = k
  · subst same
    simp
  · simp [upd_other _ _ same]

omit [DecidableEq P] in
theorem loops_thread (k : Thread) : (loops g).thread k = (g.thread k).inLoop := rfl

omit [DecidableEq P] in
/-- A statement that the loop does not have. -/
theorem loops_same {k : Thread} {l : WaiterPc} (same : l.inLoop = (g.thread k).inLoop) :
    loops { g with thread := upd g.thread k l } = loops g := by
  have threads : (fun t => (upd g.thread k l t).inLoop) = fun t => (g.thread t).inLoop := by
    rw [inLoop_upd, same]
    funext t
    by_cases mine : t = k
    · subst mine
      simp
    · simp [upd_other _ _ mine]
  simp only [loops, threads]

omit [DecidableEq P] in
theorem loops_goto {k : Thread} {l : WaiterPc} :
    loops { g with thread := upd g.thread k l } = (loops g).goto k l.inLoop := by
  simp only [loops, inLoop_upd, WaitQueue.State.goto]

omit [DecidableEq P] in
theorem loops_awaited (unflagged : g.stopping t = false) :
    awaits t (g.stopping t) g.shared = (loops g).awaited t := by
  simp only [awaits, unflagged, Bool.or_false]
  rfl

theorem loops_step_thread {k : Thread} {i : Input} (unflagged : ∀ t, g.stopping t = false)
    (hs : (waitqueue P).step g (.thread k i) = some g') :
    loops g' = loops g ∨ ∃ a, WaitQueue.step (loops g) a = some (loops g') := by
  obtain ⟨l, s, ran, rfl⟩ := Kthreads.step_thread hs
  rcases waiterRun_cases ran with ⟨pc, moved⟩ | ⟨same, cases⟩
  · cases moved
    refine .inr ⟨.thread k, ?_⟩
    have goto := loops_goto (g := g) (k := k) (l := .head)
    simp only [WaitQueue.step, loops_thread, pc, WaiterPc.inLoop] at goto ⊢
    rw [← goto]
    rfl
  · have same : s = g.shared := same
    subst same
    rcases cases with ⟨pc, next⟩ | ⟨pc, next⟩ | ⟨pc, second, next⟩ | ⟨pc, next⟩ | ⟨pc, next⟩ | ⟨pc, next⟩
    · rw [unflagged] at next
      refine .inl (loops_same ?_)
      rw [pc, show l = .test from next]
      rfl
    · refine .inr ⟨.thread k, ?_⟩
      have next : l = if awaits k (g.stopping k) g.shared then .print else .asleep := next
      rw [loops_goto, next, loops_awaited (unflagged k)]
      simp only [WaitQueue.step, loops_thread, pc, WaiterPc.inLoop]
      split <;> rfl
    · refine .inr ⟨.elapse, ?_⟩
      subst second
      have next : l = if awaits .two (g.stopping .two) g.shared then .print else .timedOut := next
      rw [loops_goto, next, loops_awaited (unflagged _)]
      simp only [WaitQueue.step, loops_thread, pc, WaiterPc.inLoop]
      split <;> rfl
    · refine .inr ⟨.thread k, ?_⟩
      rw [loops_goto, show l = .head from next]
      simp only [WaitQueue.step, loops_thread, pc]
      rfl
    · refine .inr ⟨.thread k, ?_⟩
      rw [loops_goto, show l = .clear from next]
      simp only [WaitQueue.step, loops_thread, pc]
      rfl
    · refine .inl (loops_same ?_)
      rw [pc, show l = .returned from next]
      rfl

/-- A wake-up of the threads in one queue. -/
theorem loops_wake (u : Thread) (w : P → WriterPc) :
    loops { g with
      thread := fun t => if (t = u : Bool) then (waitqueue P).wake (g.thread t) else g.thread t
      shared := { g.shared with writer := w } } = { (loops g).wake u with writer := w } := by
  have queued : (g.thread u).inLoop = .asleep ↔ g.thread u = .asleep := by
    cases g.thread u <;> simp [WaiterPc.inLoop]
  have threads : (fun t => (if (t = u : Bool) then (waitqueue P).wake (g.thread t) else g.thread t).inLoop) =
      ((loops g).wake u).thread := by
    funext t
    by_cases same : t = u
    · subst same
      by_cases sleeps : g.thread t = .asleep
      · simp [WaitQueue.State.wake, loops, waitqueue, sleeps, WaiterPc.inLoop, WaitQueue.State.goto]
      · simp [WaitQueue.State.wake, loops, waitqueue, sleeps, queued]
    · by_cases sleeps : g.thread u = .asleep
      · simp [WaitQueue.State.wake, loops, same, sleeps, WaiterPc.inLoop, WaitQueue.State.goto, upd_other _ _ same]
      · simp [WaitQueue.State.wake, loops, same, sleeps, queued]
  show WaitQueue.State.mk g.shared.watchVar _ w = WaitQueue.State.mk ((loops g).wake u).watchVar _ w
  rw [WaitQueue.wake_watchVar, ← threads]
  rfl

theorem loops_step_env {e : Env P} (hs : (waitqueue P).step g (.env e) = some g') :
    loops g' = loops g ∨ ∃ a, WaitQueue.step (loops g) a = some (loops g') := by
  obtain ⟨⟨s, woken⟩, ran, rfl⟩ := Option.map_eq_some_iff.1 hs
  cases e with
  | «open» p =>
    simp only [waitqueue, fileOperation] at ran
    split at ran <;> cases ran
    exact .inl rfl
  | close p =>
    simp only [waitqueue, fileOperation] at ran
    split at ran <;> cases ran
    exact .inl rfl
  | write p =>
    simp only [waitqueue, fileOperation] at ran
    split at ran
    · next pc =>
      cases ran
      refine .inr ⟨.write p, ?_⟩
      have idle : (loops g).writer p = .idle := pc.2
      simp only [WaitQueue.step, idle]
      rfl
    · cases ran
  | writer p r =>
    simp only [waitqueue, fileOperation] at ran
    split at ran
    · cases ran
    split at ran
    · cases ran
    · next pc =>
      cases ran
      refine .inr ⟨.writer p r, ?_⟩
      have here : (loops g).writer p = .convert := pc
      simp only [WaitQueue.step, here]
      rfl
    · next pc =>
      cases ran
      refine .inr ⟨.writer p r, ?_⟩
      have here : (loops g).writer p = .report := pc
      simp only [WaitQueue.step, here]
      rfl
    · next pc =>
      cases ran
      refine .inr ⟨.writer p r, ?_⟩
      have here : (loops g).writer p = .wake1 := pc
      simp only [WaitQueue.step, here]
      exact congrArg some (loops_wake .one _).symm
    · next pc =>
      cases ran
      refine .inr ⟨.writer p r, ?_⟩
      have here : (loops g).writer p = .wake2 := pc
      simp only [WaitQueue.step, here]
      exact congrArg some (loops_wake .two _).symm

/-- **The loops alone.** Until it is unloaded, the module does nothing that the loops of
its threads and the calls of `driver_write` do not do. -/
theorem loaded_refines (h : Reach (waitqueue P).step always loaded g) (still : g.exit = .loaded) :
    Reach WaitQueue.step always {} (loops g) := by
  induction h with
  | start => exact .start
  | @step g g' a run _ hs ih =>
    have before : g.exit = .loaded := by
      cases a with
      | thread k i =>
        obtain ⟨l, s, -, rfl⟩ := Kthreads.step_thread hs
        exact still
      | env e =>
        obtain ⟨m, -, exit, -⟩ := Kthreads.step_env hs
        exact exit ▸ still
      | exit =>
        cases Kthreads.step_exit hs with
        | begin loaded => exact loaded
        | flag | wake => cases still
        | join => exact absurd still next_loaded
    have unflagged := (waitqueue_cooperates.stopped rfl (fun _ => rfl) run).unflagged before
    have steps : loops g' = loops g ∨ ∃ a, WaitQueue.step (loops g) a = some (loops g') := by
      cases a with
      | thread k i => exact loops_step_thread unflagged hs
      | env e => exact loops_step_env hs
      | exit =>
        cases Kthreads.step_exit hs with
        | flag | wake => cases still
        | begin | join => exact .inl rfl
    rcases steps with same | ⟨a', next⟩
    · rw [same]
      exact ih before
    · exact .step (ih before) trivial next

end Waitqueue

/-- The first thread sleeps; its value is stored. -/
def stored : List (ThreadAct Thread Input (Env Unit)) :=
  [.thread .one .go, .thread .one .go, .env (.open ()), .env (.write ()), .env (.writer () (some 11))]

theorem stored_wakes : ∃ g : Threads Thread WaiterPc (Shared Unit), g.thread .one = .asleep ∧ g.shared.watchVar = 11 ∧
    ((∃ p ∈ g.shared.files, Wakes .one (g.shared.writer p) = true) ∨ ∃ rest, g.exit = .wake .one rest) := by
  obtain ⟨g, run, sleeps, value⟩ := exists_reach (waitqueue Unit).step always
    (fun g => g.thread .one = .asleep ∧ g.shared.watchVar = 11) loaded stored (by decide)
  exact ⟨g, sleeps, value, no_lost_wakeup run sleeps (by simp [awaits, value, Thread.value])⟩

end Beaglebone.Kernel.Unload
