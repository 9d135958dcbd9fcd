import Mathlib.Tactic.Common
import Beaglebone.Machine.Potential

/-!
# Kernel threads and the exit function that stops them

The threads of a module execute statements over a state that they share with the rest
of the module. The exit function stops some of them in order: `kthread_stop` sets the
flag that `kthread_should_stop` returns, wakes the thread, and waits until it has
returned. It begins only when the module has no user, and lets none in.

`Cooperates` are the obligations on the code of the threads: once its flag is set a
thread neither falls asleep nor goes on for more than a bounded number of statements.
Then the exit function returns under every schedule, and nothing of the module runs
afterwards if it has stopped all the threads (`Cooperates.unloads`).
-/

namespace Beaglebone.Machine

/-- The code of the threads `κ`, which are at positions `L` in their function, and of
the rest of the module. -/
structure Kthreads (κ L S I E : Type) where
  /-- one statement of a thread, given its flag -/
  run : κ → Bool → L → S → I → Option (L × S)
  wake : L → L
  /-- the thread has returned -/
  done : L → Bool
  /-- one statement of the rest of the module, and the threads that it wakes; `true` while
  the module lets users in -/
  env : Bool → S → E → Option (S × (κ → Bool))
  /-- nobody uses the module -/
  idle : S → Bool
  /-- the threads that the exit function stops -/
  stops : List κ

/-- The statement of the exit function that is next, and the threads still to stop. -/
inductive ExitPc (κ : Type) where
  | loaded
  | flag (k : κ) (rest : List κ)
  | wake (k : κ) (rest : List κ)
  | join (k : κ) (rest : List κ)
  | unloaded
  deriving DecidableEq, Repr

structure Threads (κ L S : Type) where
  thread : κ → L
  shared : S
  stopping : κ → Bool := fun _ => false
  exit : ExitPc κ := .loaded

inductive ThreadAct (κ I E : Type) where
  | thread (k : κ) (i : I)
  | env (e : E)
  | exit
  deriving DecidableEq

/-- To the next thread, or to the end. -/
def ExitPc.next {κ : Type} : List κ → ExitPc κ
  | [] => .unloaded
  | k :: rest => .flag k rest

variable {κ L S I E : Type} [DecidableEq κ]

def Kthreads.step (M : Kthreads κ L S I E) (g : Threads κ L S) : ThreadAct κ I E → Option (Threads κ L S)
  | .thread k i => (M.run k (g.stopping k) (g.thread k) g.shared i).map fun m =>
      { g with thread := upd g.thread k m.1, shared := m.2 }
  | .env e => (M.env (g.exit = .loaded) g.shared e).map fun m =>
      { g with thread := fun k => if m.2 k then M.wake (g.thread k) else g.thread k, shared := m.1 }
  | .exit => match g.exit with
    | .loaded => if M.idle g.shared then some { g with exit := .next M.stops } else none
    | .flag k rest => some { g with stopping := upd g.stopping k true, exit := .wake k rest }
    | .wake k rest => some { g with thread := upd g.thread k (M.wake (g.thread k)), exit := .join k rest }
    | .join k rest => if M.done (g.thread k) then some { g with exit := .next rest } else none
    | .unloaded => none

/-- The obligations on the code. `rank` counts the statements of a thread from a position
to its return when the flag is set. -/
structure Cooperates (M : Kthreads κ L S I E) (rank : κ → L → Nat) (asleep : L → Bool) : Prop where
  descends : ∀ {k l s i m}, M.run k true l s i = some m → rank k m.1 < rank k l
  awake : ∀ {k l s i m}, M.run k true l s i = some m → asleep m.1 = false
  ends : ∀ {k b l s i}, M.done l = true → M.run k b l s i = none
  live : ∀ {k b l s}, M.done l = false → asleep l = false → ∃ i, (M.run k b l s i).isSome = true
  woken : ∀ l, asleep (M.wake l) = false
  wake_rank : ∀ k l, rank k (M.wake l) ≤ rank k l
  wake_done : ∀ {l}, M.done l = true → M.done (M.wake l) = true
  keeps : ∀ {k b l s i m}, M.run k b l s i = some m → M.idle m.2 = M.idle s
  quiet : ∀ {s e}, M.idle s = true → M.env false s e = none

/-- A statement of the thread `k`. -/
def statementOf (k : κ) : ThreadAct κ I E → Nat
  | .thread j _ => if j = k then 1 else 0
  | _ => 0

/-- A statement of the exit function. -/
def exiting : ThreadAct κ I E → Nat
  | .exit => 1
  | _ => 0

/-- What a module whose threads cooperate can rely on, in every run from `g₀`. -/
structure Unloads (M : Kthreads κ L S I E) (n : Nat) (g₀ : Threads κ L S) : Prop where
  /-- a thread whose flag is set executes at most `n` statements -/
  bounded : ∀ g, Reach M.step always g₀ g → ∀ k, g.stopping k = true → ∀ as g',
    runIf M.step always g as = some g' → total (statementOf k) as ≤ n
  /-- the exit function executes at most three statements for each thread and one more -/
  exits : ∀ as g', runIf M.step always g₀ as = some g' → total exiting as ≤ 3 * M.stops.length + 1
  /-- from its first statement on it can go on, or the thread that it waits for can -/
  live : ∀ g, Reach M.step always g₀ g → g.exit ≠ .loaded → g.exit ≠ .unloaded →
    (M.step g .exit).isSome = true ∨
      ∃ k rest i, g.exit = .join k rest ∧ g.stopping k = true ∧ (M.step g (.thread k i)).isSome = true
  /-- once it has returned, no statement of the module is ever executed -/
  silent : ∀ g, Reach M.step always g₀ g → g.exit = .unloaded → ∀ a, M.step g a = none

section

variable {M : Kthreads κ L S I E} {rank : κ → L → Nat} {asleep : L → Bool} {g g' g₀ : Threads κ L S}
  {a : ThreadAct κ I E} {k : κ} {n : Nat}

/-- What holds in every state: a thread sleeps with its flag set only until it is woken,
and the threads that have been stopped have returned. -/
structure Stopped (M : Kthreads κ L S I E) (asleep : L → Bool) (g : Threads κ L S) : Prop where
  unused : g.exit ≠ .loaded → M.idle g.shared = true
  unflagged : g.exit = .loaded → ∀ k, g.stopping k = false
  sleeper : ∀ k, g.stopping k = true → asleep (g.thread k) = true → ∃ rest, g.exit = .wake k rest
  joining : ∀ k rest, g.exit = .wake k rest ∨ g.exit = .join k rest → g.stopping k = true
  stopped : ∀ k ∈ M.stops, M.done (g.thread k) = true ∨ g.exit = .loaded ∨
    ∃ j rest, k ∈ j :: rest ∧ (g.exit = .flag j rest ∨ g.exit = .wake j rest ∨ g.exit = .join j rest)

theorem Kthreads.step_thread {i : I} (hs : M.step g (.thread k i) = some g') :
    ∃ l s, M.run k (g.stopping k) (g.thread k) g.shared i = some (l, s) ∧
      g' = { g with thread := upd g.thread k l, shared := s } := by
  obtain ⟨⟨l, s⟩, ran, rfl⟩ := Option.map_eq_some_iff.1 hs
  exact ⟨l, s, ran, rfl⟩

theorem Kthreads.step_env {e : E} (hs : M.step g (.env e) = some g') :
    ∃ m, M.env (g.exit = .loaded) g.shared e = some m ∧ g'.exit = g.exit ∧ g'.stopping = g.stopping := by
  obtain ⟨m, ran, rfl⟩ := Option.map_eq_some_iff.1 hs
  exact ⟨m, ran, rfl, rfl⟩

/-- What a statement of the exit function does. -/
inductive ExitStep (M : Kthreads κ L S I E) (g : Threads κ L S) : Threads κ L S → Prop where
  | begin (loaded : g.exit = .loaded) : ExitStep M g { g with exit := .next M.stops }
  | flag {k : κ} {rest : List κ} (pc : g.exit = .flag k rest) :
      ExitStep M g { g with stopping := upd g.stopping k true, exit := .wake k rest }
  | wake {k : κ} {rest : List κ} (pc : g.exit = .wake k rest) :
      ExitStep M g { g with thread := upd g.thread k (M.wake (g.thread k)), exit := .join k rest }
  | join {k : κ} {rest : List κ} (pc : g.exit = .join k rest) (done : M.done (g.thread k) = true) :
      ExitStep M g { g with exit := .next rest }

theorem Kthreads.step_exit_idle (hs : M.step g .exit = some g') (loaded : g.exit = .loaded) :
    M.idle g'.shared = true := by
  simp only [Kthreads.step, loaded] at hs
  split at hs
  · next idle => cases hs; exact idle
  · cases hs

theorem Kthreads.step_exit (hs : M.step g .exit = some g') : ExitStep M g g' := by
  simp only [Kthreads.step] at hs
  split at hs
  · next pc =>
    split at hs <;> cases hs
    exact .begin pc
  · next pc => cases hs; exact .flag pc
  · next pc => cases hs; exact .wake pc
  · next pc =>
    split at hs
    · next done => cases hs; exact .join pc done
    · cases hs
  · cases hs

/-! ## The invariant -/

omit [DecidableEq κ] in
/-- Behind `next`, the threads still to stop are the same. -/
theorem next_mem {rest : List κ} (mem : k ∈ rest) : ∃ j rest', k ∈ j :: rest' ∧ ExitPc.next rest = .flag j rest' := by
  cases rest with
  | nil => cases mem
  | cons j rest => exact ⟨j, rest, mem, rfl⟩

omit [DecidableEq κ] in
theorem next_loaded {rest : List κ} : ExitPc.next rest ≠ .loaded := by
  cases rest <;> simp [ExitPc.next]

omit [DecidableEq κ] in
theorem next_ne {rest rest' : List κ} {j : κ} : ExitPc.next rest ≠ .wake j rest' ∧ ExitPc.next rest ≠ .join j rest' := by
  cases rest <;> simp [ExitPc.next]

omit [DecidableEq κ] in
/-- What `kthread_stop` of `k` leaves to stop. -/
theorem Stopped.ahead {rest : List κ} (h : Stopped M asleep g)
    (pc : g.exit = .flag k rest ∨ g.exit = .wake k rest ∨ g.exit = .join k rest) {j : κ} (mem : j ∈ M.stops) :
    M.done (g.thread j) = true ∨ j ∈ k :: rest := by
  rcases h.stopped j mem with done | loaded | ⟨i, rest', here, at_⟩
  · exact .inl done
  · rcases pc with pc | pc | pc <;> rw [pc] at loaded <;> cases loaded
  · rcases pc with pc | pc | pc <;> rw [pc] at at_ <;> rcases at_ with at_ | at_ | at_ <;> cases at_ <;> exact .inr here

variable (coop : Cooperates M rank asleep)
include coop

theorem Stopped.thread {i : I} (h : Stopped M asleep g) (hs : M.step g (.thread k i) = some g') :
    Stopped M asleep g' := by
  obtain ⟨l, s, ran, rfl⟩ := Kthreads.step_thread hs
  refine ⟨fun leaving => (coop.keeps ran).trans (h.unused leaving), h.unflagged, fun j flag => ?_, h.joining,
    fun j mem => ?_⟩
  · by_cases same : j = k
    · subst same
      intro sleeps
      have flag : g.stopping j = true := flag
      rw [flag] at ran
      have up := coop.awake ran
      simp only [upd_same] at sleeps
      rw [sleeps] at up
      cases up
    · simp only [upd_other _ _ same]
      exact h.sleeper j flag
  · by_cases same : j = k
    · subst same
      rcases h.stopped j mem with done | rest
      · rw [coop.ends done] at ran
        cases ran
      · exact .inr rest
    · simp only [upd_other _ _ same]
      exact h.stopped j mem

theorem Stopped.exit (h : Stopped M asleep g) (hs : M.step g .exit = some g') : Stopped M asleep g' := by
  have begins := Kthreads.step_exit_idle hs
  cases Kthreads.step_exit hs with
  | begin loaded =>
    refine ⟨fun _ => begins loaded, fun _ => h.unflagged loaded, fun j flag => ?_, fun j rest => ?_, fun j mem => ?_⟩
    · rw [h.unflagged loaded j] at flag
      cases flag
    · rintro (pc | pc)
      · exact absurd pc next_ne.1
      · exact absurd pc next_ne.2
    · obtain ⟨i, rest, here, pc⟩ := next_mem mem
      exact .inr (.inr ⟨i, rest, here, .inl pc⟩)
  | @flag k rest pc =>
    have unused := h.unused (by rw [pc]; exact fun loaded => by cases loaded)
    refine ⟨fun _ => unused, (fun loaded => by cases loaded), fun j flag sleeps => ?_, fun j rest' => ?_, fun j mem => ?_⟩
    · by_cases same : j = k
      · subst same
        exact ⟨rest, rfl⟩
      · simp only [upd_other _ _ same] at flag
        obtain ⟨rest', other⟩ := h.sleeper j flag sleeps
        rw [pc] at other
        cases other
    · rintro (next | next) <;> cases next
      exact upd_same ..
    · exact (h.ahead (.inl pc) mem).imp_right fun here => .inr ⟨_, _, here, .inr (.inl rfl)⟩
  | @wake k rest pc =>
    have unused := h.unused (by rw [pc]; exact fun loaded => by cases loaded)
    refine ⟨fun _ => unused, (fun loaded => by cases loaded), fun j flag sleeps => ?_, fun j rest' => ?_, fun j mem => ?_⟩
    · by_cases same : j = k
      · subst same
        simp only [upd_same, coop.woken] at sleeps
        cases sleeps
      · simp only [upd_other _ _ same] at sleeps
        obtain ⟨rest', other⟩ := h.sleeper j flag sleeps
        rw [pc] at other
        cases other
        exact absurd rfl same
    · rintro (next | next) <;> cases next
      exact h.joining k rest (.inl pc)
    · rcases h.ahead (.inr (.inl pc)) mem with done | here
      · by_cases same : j = k
        · subst same
          simp only [upd_same]
          exact .inl (coop.wake_done done)
        · simp only [upd_other _ _ same]
          exact .inl done
      · exact .inr (.inr ⟨_, _, here, .inr (.inr rfl)⟩)
  | @join k rest pc done =>
    have unused := h.unused (by rw [pc]; exact fun loaded => by cases loaded)
    refine ⟨fun _ => unused, fun loaded => absurd loaded next_loaded, fun j flag sleeps => ?_, fun j rest' => ?_,
      fun j mem => ?_⟩
    · obtain ⟨rest', other⟩ := h.sleeper j flag sleeps
      rw [pc] at other
      cases other
    · rintro (next | next)
      · exact absurd next next_ne.1
      · exact absurd next next_ne.2
    · rcases h.ahead (.inr (.inr pc)) mem with returned | here
      · exact .inl returned
      · rcases List.mem_cons.1 here with rfl | here
        · exact .inl done
        · obtain ⟨i, rest', here, next⟩ := next_mem here
          exact .inr (.inr ⟨i, rest', here, .inl next⟩)

theorem Stopped.step (h : Stopped M asleep g) (hs : M.step g a = some g') : Stopped M asleep g' := by
  cases a with
  | thread k i => exact h.thread coop hs
  | exit => exact h.exit coop hs
  | env e =>
    obtain ⟨m, ran, exit, flags⟩ := Kthreads.step_env hs
    have loaded : g.exit = .loaded := by
      by_contra leaving
      rw [decide_eq_false leaving, coop.quiet (h.unused leaving)] at ran
      cases ran
    have unflagged : ∀ k, g'.stopping k = false := fun k => by
      rw [flags]
      exact h.unflagged loaded k
    rw [loaded] at exit
    refine ⟨fun leaving => absurd exit leaving, fun _ => unflagged, fun j flag => ?_, fun j rest pc => ?_,
      fun _ _ => .inr (.inl exit)⟩
    · rw [unflagged] at flag
      cases flag
    · rw [exit] at pc
      rcases pc with pc | pc <;> cases pc

/-! ## The exit function returns -/

/-- A flag stays set, and a statement of the thread brings its return nearer. -/
theorem step_flagged (h : Stopped M asleep g) (flag : g.stopping k = true) (hs : M.step g a = some g') :
    g'.stopping k = true ∧ rank k (g'.thread k) + statementOf k a ≤ rank k (g.thread k) := by
  cases a with
  | thread j i =>
    obtain ⟨l, s, ran, rfl⟩ := Kthreads.step_thread hs
    refine ⟨flag, ?_⟩
    by_cases same : j = k
    · subst same
      rw [flag] at ran
      have down := coop.descends ran
      simpa [statementOf] using Nat.succ_le_of_lt down
    · have other : k ≠ j := fun e => same e.symm
      simp [statementOf, same, upd_other _ _ other]
  | env e =>
    obtain ⟨m, ran, -⟩ := Kthreads.step_env hs
    have leaving : g.exit ≠ .loaded := fun loaded => by
      rw [h.unflagged loaded] at flag
      cases flag
    rw [decide_eq_false leaving, coop.quiet (h.unused leaving)] at ran
    cases ran
  | exit =>
    cases Kthreads.step_exit hs with
    | begin | join => exact ⟨flag, Nat.le_refl _⟩
    | @flag j rest pc =>
      refine ⟨?_, Nat.le_refl _⟩
      by_cases same : k = j
      · subst same
        exact upd_same ..
      · exact (upd_other _ _ same).trans flag
    | @wake j rest pc =>
      refine ⟨flag, ?_⟩
      by_cases same : k = j
      · subst same
        simpa [statementOf] using coop.wake_rank k (g.thread k)
      · simp [statementOf, upd_other _ _ same]

theorem run_flagged {as : List (ThreadAct κ I E)} (h : Stopped M asleep g) (flag : g.stopping k = true)
    (run : runIf M.step always g as = some g') : rank k (g'.thread k) + total (statementOf k) as ≤ rank k (g.thread k) := by
  induction as generalizing g with
  | nil =>
    obtain rfl : g = g' := by simpa [runIf] using run
    exact Nat.le_refl _
  | cons a as ih =>
    simp only [runIf, always] at run
    obtain ⟨t, hs, run⟩ := Option.bind_eq_some_iff.1 run
    obtain ⟨flag', down⟩ := step_flagged coop h flag hs
    have rest := ih (h.step coop hs) flag' run
    rw [total_cons]
    omega

omit coop [DecidableEq κ] in
/-- The statements left to the exit function. -/
def ExitPc.left (stops : List κ) : ExitPc κ → Nat
  | .loaded => 3 * stops.length + 1
  | .flag _ rest => 3 * rest.length + 3
  | .wake _ rest => 3 * rest.length + 2
  | .join _ rest => 3 * rest.length + 1
  | .unloaded => 0

omit coop [DecidableEq κ] in
theorem ExitPc.left_next (stops rest : List κ) : (ExitPc.next rest).left stops = 3 * rest.length := by
  cases rest with
  | nil => rfl
  | cons k rest => simp [next, left, Nat.mul_add]

omit coop in
theorem step_exitLeft (hs : M.step g a = some g') : g'.exit.left M.stops + exiting a ≤ g.exit.left M.stops := by
  cases a with
  | thread k i =>
    obtain ⟨l, s, -, rfl⟩ := Kthreads.step_thread hs
    exact Nat.le_refl _
  | env e =>
    obtain ⟨m, -, exit, -⟩ := Kthreads.step_env hs
    rw [exit]
    exact Nat.le_refl _
  | exit =>
    cases Kthreads.step_exit hs with
    | begin pc =>
      rw [ExitPc.left_next]
      simp [pc, ExitPc.left, exiting]
    | flag pc | wake pc => simp [pc, ExitPc.left, exiting]
    | join pc done =>
      rw [ExitPc.left_next]
      simp [pc, ExitPc.left, exiting]

/-- The invariant of every run. -/
theorem Cooperates.stopped (loaded : g₀.exit = .loaded) (unflagged : ∀ k, g₀.stopping k = false)
    (run : Reach M.step always g₀ g) : Stopped M asleep g := by
  have start : Stopped M asleep g₀ := by
    refine ⟨fun leaving => absurd loaded leaving, fun _ => unflagged, fun k flag => ?_, fun k rest pc => ?_,
      fun _ _ => .inr (.inl loaded)⟩
    · rw [unflagged] at flag
      cases flag
    · rw [loaded] at pc
      rcases pc with pc | pc <;> cases pc
  exact run.invariant start fun _ _ _ h _ hs => h.step coop hs

/-- **Unloading.** -/
theorem Cooperates.unloads (bound : ∀ k l, rank k l ≤ n) (all : ∀ k, k ∈ M.stops) (loaded : g₀.exit = .loaded)
    (unflagged : ∀ k, g₀.stopping k = false) : Unloads M n g₀ := by
  have stopped : ∀ g, Reach M.step always g₀ g → Stopped M asleep g := fun _ => coop.stopped loaded unflagged
  constructor
  · intro g run k flag as g' more
    have down := run_flagged coop (stopped g run) flag more
    have top := bound k (g.thread k)
    omega
  · intro as g' run
    have down := runIf_potential (fun g : Threads κ L S => g.exit.left M.stops) exiting (fun _ => 0)
      (fun _ _ _ _ hs => step_exitLeft hs) run
    have none : total (fun _ : ThreadAct κ I E => 0) as = 0 := total_zero as
    simp only [loaded, ExitPc.left] at down
    omega
  · intro g run leaving returned
    cases pc : g.exit with
    | loaded => exact absurd pc leaving
    | unloaded => exact absurd pc returned
    | flag k rest | wake k rest => exact .inl (by simp [Kthreads.step, pc])
    | join k rest =>
      cases done : M.done (g.thread k) with
      | true => exact .inl (by simp [Kthreads.step, pc, done])
      | false =>
        have flag := (stopped g run).joining k rest (.inr pc)
        have up : asleep (g.thread k) = false := by
          by_contra sleeps
          obtain ⟨rest', other⟩ := (stopped g run).sleeper k flag (by simpa using sleeps)
          rw [pc] at other
          cases other
        obtain ⟨i, runs⟩ := coop.live (b := g.stopping k) (s := g.shared) done up
        exact .inr ⟨k, rest, i, rfl, flag, by simpa [Kthreads.step] using runs⟩
  · intro g run gone a
    have returned : ∀ k, M.done (g.thread k) = true := by
      intro k
      rcases (stopped g run).stopped k (all k) with done | loaded | ⟨j, rest, -, pc | pc | pc⟩
      · exact done
      all_goals simp_all
    cases a with
    | thread k i => simp [Kthreads.step, coop.ends (returned k)]
    | env e =>
      have quiet := coop.quiet (e := e) ((stopped g run).unused (by simp [gone]))
      simp [Kthreads.step, gone, quiet]
    | exit => simp [Kthreads.step, gone]

end

end Beaglebone.Machine
