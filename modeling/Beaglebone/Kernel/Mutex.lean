import Beaglebone.Machine.Monitor
import Beaglebone.Machine.Potential

/-!
# `kernel/021_mutex`: critical sections

`thread_function`, executed once by each of any number of threads, statement by
statement (the module starts two, with the numbers 1 and 2). The critical sections
follow one another in the log, each printed whole, and every thread has exactly one;
every thread returns (`sections_in_turn`).
-/

namespace Beaglebone.Kernel.Mutex

open Machine

/-- The statement of `thread_function` that is next. -/
inductive Pc where
  /-- `printk("Thread %d is executed\n", …)` -/
  | executed
  | lock
  | inSection
  | msleep
  | leaving
  | unlock
  | finished
  | returned
  deriving DecidableEq, Repr

structure Local where
  /-- `*(int *) arg` -/
  number : Int
  pc : Pc := .executed
  deriving DecidableEq, Repr

/-- A line of the log. -/
inductive Line where
  | executed (number : Int)
  /-- `"Thread %d is in critical section!\n"` -/
  | inSection (number : Int)
  /-- `"Thread %d is leaving the critical section!\n"` -/
  | leaving (number : Int)
  | finished (number : Int)
  deriving DecidableEq, Repr

/-- The mutex is held. -/
def Pc.inside : Pc → Bool
  | inSection | msleep | leaving | unlock => true
  | _ => false

/-- The critical section has been left. -/
def Pc.left : Pc → Bool
  | unlock | finished | returned => true
  | _ => false

/-- One statement; `msleep` and the wait for the mutex end whenever the scheduler says. -/
def threadFunction (l : Local) : Option (Move Local Unit Line) :=
  match l.pc with
  | .executed => some { loc := { l with pc := .lock }, shared := (), out := some (.executed l.number) }
  | .lock => some { loc := { l with pc := .inSection }, shared := (), op := .acquire }
  | .inSection => some { loc := { l with pc := .msleep }, shared := (), out := some (.inSection l.number) }
  | .msleep => some { loc := { l with pc := .leaving }, shared := () }
  | .leaving => some { loc := { l with pc := .unlock }, shared := (), out := some (.leaving l.number) }
  | .unlock => some { loc := { l with pc := .finished }, shared := (), op := .release }
  | .finished => some { loc := { l with pc := .returned }, shared := (), out := some (.finished l.number) }
  | .returned => none

/-- `lock`, the threads, and a log that only they write. -/
def mutex : Monitor Local Unit Unit Empty Line where
  run _ l _ _ := threadFunction l
  env _ e := nomatch e
  inside l := l.pc.inside

abbrev State (P : Type) := Global P Local Unit Line

abbrev Action (P : Type) := Act P Unit Empty

def initial {P : Type} (number : P → Int) : State P := ⟨fun p => { number := number p }, none, (), []⟩

/-- A line printed with the mutex held. -/
def Line.critical : Line → Bool
  | inSection _ | leaving _ => true
  | _ => false

/-- What one critical section prints. -/
def criticalSection (number : Int) : List Line := [.inSection number, .leaving number]

/-- What the one that is open has printed. -/
def opened : Option Local → List Line
  | some ⟨number, .msleep⟩ | some ⟨number, .leaving⟩ => [.inSection number]
  | _ => []

/-- The statements that are left. -/
def Pc.rank : Pc → Nat
  | executed => 7
  | lock => 6
  | inSection => 5
  | msleep => 4
  | leaving => 3
  | unlock => 2
  | finished => 1
  | returned => 0

theorem disciplined : mutex.Disciplined := by
  have effect : ∀ {l : Local} {m : Move Local Unit Line}, threadFunction l = some m →
      (m.op = .keep → m.loc.pc.inside = l.pc.inside) ∧
      (m.op = .acquire → l.pc.inside = false ∧ m.loc.pc.inside = true) ∧
      (m.op = .release → l.pc.inside = true ∧ m.loc.pc.inside = false) := by
    rintro ⟨number, pc⟩ m hr
    cases pc <;> cases hr <;> simp [Pc.inside]
  exact ⟨fun hr => (effect hr).1, fun hr => (effect hr).2.1, fun hr => (effect hr).2.2, fun _ _ _ => rfl⟩

section

variable {P : Type} {number : P → Int} {g g' : State P}

theorem held_initial : mutex.Held (initial number) := by simp [Monitor.Held, initial, mutex, Pc.inside]

/-- The critical sections of `ps` have been printed, and the open one. -/
structure InTurn (number : P → Int) (g : State P) (ps : List P) : Prop where
  nodup : ps.Nodup
  left : ∀ p, p ∈ ps ↔ (g.proc p).pc.left = true
  log : g.log.filter Line.critical = (ps.flatMap fun p => criticalSection (number p)) ++ opened g.owner
  number : ∀ p, (g.proc p).number = number p

variable [DecidableEq P]

/-- A thread outside leaves the owner alone. -/
theorem owner_outside {p : P} (held : mutex.Held g) (out : (g.proc p).pc.inside = false) {l : Local}
    (proc : g'.proc = upd g.proc p l) (lock : g'.lock = g.lock) : g'.owner = g.owner := by
  simp only [Global.owner, lock]
  cases owner : g.lock with
  | none => rfl
  | some q =>
    have other : q ≠ p := by
      rintro rfl
      have inside : (g.proc q).pc.inside = true := (held q).2 owner
      rw [out] at inside
      cases inside
    simp [proc, upd_other _ _ other]

/-- A statement that leaves no critical section. -/
theorem InTurn.same {p : P} {ps : List P} (h : InTurn number g ps) {l : Local} (proc : g'.proc = upd g.proc p l)
    (kept : l.number = (g.proc p).number) (left : l.pc.left = (g.proc p).pc.left)
    (log : g'.log.filter Line.critical = (ps.flatMap fun p => criticalSection (number p)) ++ opened g'.owner) :
    InTurn number g' ps := by
  refine ⟨h.nodup, fun q => ?_, log, fun q => ?_⟩
  · rw [h.left q, proc]
    by_cases same : q = p
    · rw [same, upd_same, left]
    · rw [upd_other _ _ same]
  · rw [proc]
    by_cases same : q = p
    · rw [same, upd_same, kept, h.number]
    · rw [upd_other _ _ same, h.number]

theorem InTurn.step {ps : List P} {a : Action P} (held : mutex.Held g) (h : InTurn number g ps)
    (hs : mutex.step g a = some g') : ∃ ps', InTurn number g' ps' := by
  cases a with
  | env e => cases e
  | proc p i =>
    obtain ⟨m, hr, proc, -, log, lock⟩ := Monitor.step_proc hs
    have printed := h.log
    have self : g'.proc p = m.loc := by rw [proc, upd_same]
    have owns : (g.proc p).pc.inside = true → g.owner = some (g.proc p) := fun inside =>
      Monitor.owner_of_lock ((held p).1 inside)
    have numbered := h.number p
    rcases here : g.proc p with ⟨n, pc⟩
    have run : threadFunction ⟨n, pc⟩ = some m := by rw [← here]; exact hr
    rw [here] at owns numbered
    cases pc with
    | executed | finished =>
      cases run
      have owner := owner_outside held (by rw [here]; rfl) proc (by simpa using lock)
      refine ⟨ps, h.same proc (by rw [here]) (by rw [here]; rfl) ?_⟩
      simp [log, owner, printed, Line.critical]
    | lock =>
      cases run
      obtain ⟨free, lock⟩ : g.lock = none ∧ g'.lock = some p := by simpa using lock
      refine ⟨ps, h.same proc (by rw [here]) (by rw [here]; rfl) ?_⟩
      simp [log, printed, Monitor.owner_of_lock lock, Monitor.owner_of_free free, self, opened]
    | inSection =>
      cases run
      have lock : g'.lock = some p := by simpa [(held p).1 (by rw [here]; rfl)] using lock
      refine ⟨ps, h.same proc (by rw [here]) (by rw [here]; rfl) ?_⟩
      simp [log, printed, owns rfl, Monitor.owner_of_lock lock, self, opened, Line.critical]
    | msleep =>
      cases run
      have lock : g'.lock = some p := by simpa [(held p).1 (by rw [here]; rfl)] using lock
      refine ⟨ps, h.same proc (by rw [here]) (by rw [here]; rfl) ?_⟩
      simp [log, printed, owns rfl, Monitor.owner_of_lock lock, self, opened]
    | leaving =>
      cases run
      have lock : g'.lock = some p := by simpa [(held p).1 (by rw [here]; rfl)] using lock
      have fresh : p ∉ ps := by simp [h.left, here, Pc.left]
      refine ⟨ps ++ [p], h.nodup.append (List.nodup_singleton p) (by simpa using fresh), fun q => ?_, ?_, fun q => ?_⟩
      · rw [List.mem_append, h.left q]
        by_cases same : q = p
        · simp [same, self, Pc.left]
        · simp [same, proc, upd_other _ _ same]
      · have number : number p = n := numbered.symm
        simp [log, printed, owns rfl, Monitor.owner_of_lock lock, self, opened, Line.critical, criticalSection, number]
      · by_cases same : q = p
        · rw [same, self, ← numbered]
        · rw [proc, upd_other _ _ same, h.number]
    | unlock =>
      cases run
      have lock : g'.lock = none := by simpa using lock
      refine ⟨ps, h.same proc (by rw [here]) (by rw [here]; rfl) ?_⟩
      simp [log, printed, owns rfl, Monitor.owner_of_free lock, opened]
    | returned => cases run

/-- The step is a statement of `p`. -/
def statement (p : P) : Action P → Nat
  | .proc q _ => if q = p then 1 else 0
  | .env e => nomatch e

theorem step_rank (p : P) {a : Action P} (hs : mutex.step g a = some g') :
    (g'.proc p).pc.rank + statement p a ≤ (g.proc p).pc.rank := by
  cases a with
  | env e => cases e
  | proc q i =>
    obtain ⟨m, hr, proc, -⟩ := Monitor.step_proc hs
    rw [proc]
    by_cases same : q = p
    · subst same
      have run : threadFunction (g.proc q) = some m := hr
      rcases here : g.proc q with ⟨n, pc⟩
      rw [here] at run
      cases pc <;> cases run <;> simp [statement, Pc.rank]
    · simp [statement, same, upd_other _ _ (Ne.symm same)]

/-- A thread that has not returned can execute its next statement, or the owner of the
mutex can. -/
theorem not_stuck (held : mutex.Held g) {p : P} (more : (g.proc p).pc ≠ .returned) :
    ∃ q, (mutex.step g (.proc q ())).isSome = true := by
  have runs : ∀ q, (g.proc q).pc ≠ .returned → ∃ m, threadFunction (g.proc q) = some m := by
    intro q more
    unfold threadFunction
    cases pc : (g.proc q).pc with
    | returned => exact absurd pc more
    | _ => exact ⟨_, rfl⟩
  cases lock : g.lock with
  | none =>
    obtain ⟨m, run⟩ := runs p more
    exact ⟨p, Monitor.step_isSome run fun _ => lock⟩
  | some q =>
    have inside : (g.proc q).pc.inside = true := (held q).2 lock
    obtain ⟨m, run⟩ := runs q fun returned => by simp [returned, Pc.inside] at inside
    refine ⟨q, Monitor.step_isSome run fun op => ?_⟩
    have out : (g.proc q).pc.inside = false := (disciplined.acquire (b := true) (s := ()) (i := ()) run op).1
    rw [inside] at out
    cases out

/-- **Critical sections in turn.** Under every schedule the lines of the critical sections
stand in the log one section after the other, one for each thread that has left it and the
beginning of the open one; a thread executes at most seven statements; and as long as one
has not returned, some thread can execute a statement. -/
theorem sections_in_turn (h : Reach mutex.step always (initial number) g) :
    (∃ ps, InTurn number g ps) ∧
    (∀ as, runIf mutex.step always (initial number) as = some g → ∀ p, total (statement p) as ≤ 7) ∧
    ((∃ p, (g.proc p).pc ≠ .returned) → ∃ p, (mutex.step g (.proc p ())).isSome = true) := by
  have held : mutex.Held g := Monitor.Held.reach disciplined held_initial h
  refine ⟨?_, fun as run p => ?_, fun ⟨p, more⟩ => not_stuck held more⟩
  · induction h with
    | start => exact ⟨[], List.nodup_nil, by simp [initial, Pc.left], rfl, fun _ => rfl⟩
    | step before _ hs ih =>
      have held := Monitor.Held.reach disciplined held_initial before
      obtain ⟨ps, turn⟩ := ih held
      exact turn.step held hs
  · have paid := runIf_potential (fun g : State P => (g.proc p).pc.rank) (statement p) (fun _ => 0)
      (fun _ _ _ _ hs => step_rank p hs) run
    simpa [initial, Pc.rank] using Nat.le_trans (Nat.le_add_left ..) paid

end

/-- The number of each of the two threads. -/
def twoThreads (second : Bool) : Int := if second then 2 else 1

/-- The second thread begins while the first one is in its critical section. -/
def overlapping : List (Action Bool) :=
  [.proc false (), .proc false (), .proc false (), .proc true (), .proc false (), .proc false ()]

theorem overlapping_in_turn : ∃ g : State Bool,
    g.log = [.executed 1, .inSection 1, .executed 2, .leaving 1] ∧ (∃ ps, InTurn twoThreads g ps) ∧
    (∀ as, runIf mutex.step always (initial twoThreads) as = some g → ∀ p, total (statement p) as ≤ 7) ∧
    ((∃ p, (g.proc p).pc ≠ .returned) → ∃ p, (mutex.step g (.proc p ())).isSome = true) := by
  obtain ⟨g, run, log⟩ := exists_reach mutex.step always
    (fun g => g.log = [.executed 1, .inSection 1, .executed 2, .leaving 1]) (initial twoThreads) overlapping (by decide)
  exact ⟨g, log, sections_in_turn run⟩

end Beaglebone.Kernel.Mutex
