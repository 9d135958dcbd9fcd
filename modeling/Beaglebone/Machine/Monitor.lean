import Mathlib.Data.Fintype.Basic
import Mathlib.Tactic.Common
import Beaglebone.Machine.Run

/-!
# Processes around one mutex and an asynchronous environment

A `Monitor` has any number of processes with a local state `L`, a shared state
`S` that the processes and an environment (an interrupt handler, a device) both
change, and one mutex. The program says when it takes and releases the mutex
(`LockOp`); nothing here makes it do so in the right places. `Disciplined` is
the obligation on the program: a local state is `inside` exactly between its
`acquire` and its `release`, and outside it leaves the shared state alone.

`Rules` are the verification conditions of a proof about every interleaving: an
invariant `J` of the owner's local state and the shared state, an assertion `K`
on every process outside, and a property `Q` of what the processes output. They
mention one process at a time; `Rules.sound` lifts them to all of them.
-/

namespace Beaglebone.Machine

/-- What a statement does to the mutex. -/
inductive LockOp where
  | keep
  | acquire
  | release
  deriving DecidableEq, Repr

/-- The effect of one statement of one process. -/
structure Move (L S O : Type*) where
  loc : L
  shared : S
  op : LockOp := .keep
  out : Option O := none

/-- The program of every process and the steps of the environment. `run` also
sees whether the mutex is held. -/
structure Monitor (L S I E O : Type*) where
  run : Bool → L → S → I → Option (Move L S O)
  env : S → E → Option S
  inside : L → Bool

/-- One state of the whole system, with everything output so far. -/
structure Global (P L S O : Type*) where
  proc : P → L
  lock : Option P
  shared : S
  log : List O

/-- A step of the whole system: process `p` runs a statement, or the
environment moves. -/
inductive Act (P I E : Type*) where
  | proc (p : P) (i : I)
  | env (e : E)
  deriving DecidableEq

variable {P L S I E O : Type*}

/-- The local state of the process that holds the mutex. -/
def Global.owner (g : Global P L S O) : Option L := g.lock.map g.proc

namespace Monitor

/-- One step of the whole system. A process that wants the mutex waits while it
is held. -/
def step [DecidableEq P] (M : Monitor L S I E O) (g : Global P L S O) : Act P I E → Option (Global P L S O)
  | .env e => (M.env g.shared e).map fun s => { g with shared := s }
  | .proc p i =>
    match M.run g.lock.isSome (g.proc p) g.shared i with
    | none => none
    | some m =>
      let g' := { g with proc := upd g.proc p m.loc, shared := m.shared,
                         log := g.log ++ m.out.toList }
      match m.op with
      | .keep => some g'
      | .acquire => if g.lock.isNone then some { g' with lock := some p } else none
      | .release => some { g' with lock := none }

/-- The program takes the mutex when it goes inside and gives it back when it
comes out, and only reads the shared state outside. -/
structure Disciplined (M : Monitor L S I E O) : Prop where
  keep : ∀ {b l s i m}, M.run b l s i = some m → m.op = .keep → M.inside m.loc = M.inside l
  acquire : ∀ {b l s i m}, M.run b l s i = some m → m.op = .acquire →
    M.inside l = false ∧ M.inside m.loc = true
  release : ∀ {b l s i m}, M.run b l s i = some m → m.op = .release →
    M.inside l = true ∧ M.inside m.loc = false
  frame : ∀ {b l s i m}, M.run b l s i = some m → m.op = .keep → M.inside l = false →
    m.shared = s

/-- A step condition in local terms: on the environment (seeing the owner's
local state), on the environment as seen from each process outside, and on the
inputs of a process. -/
structure Cond (L S I E : Type*) where
  env : Option L → S → E → Prop := fun _ _ _ => True
  bystander : L → S → E → Prop := fun _ _ _ => True
  proc : L → S → I → Prop := fun _ _ _ => True

/-- The step condition of the whole system. -/
def ok (M : Monitor L S I E O) (c : Cond L S I E) (g : Global P L S O) : Act P I E → Prop
  | .env e => c.env g.owner g.shared e ∧
      ∀ p, M.inside (g.proc p) = false → c.bystander (g.proc p) g.shared e
  | .proc p i => c.proc (g.proc p) g.shared i

/-- For finitely many processes, so that a run can be checked by executing it. -/
instance [Fintype P] (M : Monitor L S I E O) (c : Cond L S I E) [∀ o s e, Decidable (c.env o s e)]
    [∀ l s e, Decidable (c.bystander l s e)] [∀ l s i, Decidable (c.proc l s i)]
    (g : Global P L S O) : (a : Act P I E) → Decidable (M.ok c g a)
  | .env e => inferInstanceAs (Decidable (c.env g.owner g.shared e ∧
      ∀ p, M.inside (g.proc p) = false → c.bystander (g.proc p) g.shared e))
  | .proc p i => inferInstanceAs (Decidable (c.proc (g.proc p) g.shared i))

/-- Processes are inside exactly when they hold the mutex. -/
def Held (M : Monitor L S I E O) (g : Global P L S O) : Prop :=
  ∀ p, M.inside (g.proc p) = true ↔ g.lock = some p

/-- Verification conditions for `J` (owner and shared state), `K` (each process
outside) and `Q` (every output). -/
structure Rules (M : Monitor L S I E O) (c : Cond L S I E) (J : Option L → S → Prop)
    (K : L → S → Prop) (Q : O → Prop) : Prop where
  env : ∀ {o s e s'}, J o s → c.env o s e → M.env s e = some s' → J o s'
  bystander : ∀ {o l s e s'}, J o s → c.env o s e → M.inside l = false → K l s →
    c.bystander l s e → M.env s e = some s' → K l s'
  own : ∀ {b l s i m}, J (some l) s → M.inside l = true → c.proc l s i →
    M.run b l s i = some m → m.op = .keep → J (some m.loc) m.shared
  leave : ∀ {b l s i m}, J (some l) s → M.inside l = true → c.proc l s i →
    M.run b l s i = some m → m.op = .release → J none m.shared ∧ K m.loc m.shared
  enter : ∀ {b l s i m}, J none s → M.inside l = false → K l s → c.proc l s i →
    M.run b l s i = some m → m.op = .acquire → J (some m.loc) m.shared
  outside : ∀ {o b l s i m}, J o s → M.inside l = false → K l s → c.proc l s i →
    M.run b l s i = some m → m.op = .keep → K m.loc s
  others : ∀ {o b l l' s i m}, J o s → c.proc l s i → M.run b l s i = some m →
    M.inside l' = false → K l' s → K l' m.shared
  out : ∀ {o b l s i m r}, J o s → (M.inside l = true → o = some l) →
    (M.inside l = false → K l s) → c.proc l s i →
    M.run b l s i = some m → m.out = some r → Q r

/-- What `Rules` establish of a state. -/
structure Sound (M : Monitor L S I E O) (J : Option L → S → Prop) (K : L → S → Prop)
    (Q : O → Prop) (g : Global P L S O) : Prop where
  held : M.Held g
  owner : J g.owner g.shared
  outside : ∀ p, M.inside (g.proc p) = false → K (g.proc p) g.shared
  log : ∀ r ∈ g.log, Q r

section Soundness

variable {M : Monitor L S I E O} {c : Cond L S I E} {J : Option L → S → Prop}
  {K : L → S → Prop} {Q : O → Prop} {g g' : Global P L S O}

theorem owner_of_lock {p : P} (h : g.lock = some p) : g.owner = some (g.proc p) := by
  simp [Global.owner, h]

theorem owner_of_free (h : g.lock = none) : g.owner = none := by simp [Global.owner, h]

variable [DecidableEq P]

/-- What one step of one process can do: the statement it ran and its effect on
the mutex, the shared state and the log. -/
theorem step_proc {p : P} {i : I} (h : M.step g (.proc p i) = some g') :
    ∃ m, M.run g.lock.isSome (g.proc p) g.shared i = some m ∧
      g'.proc = upd g.proc p m.loc ∧ g'.shared = m.shared ∧ g'.log = g.log ++ m.out.toList ∧
      ((m.op = .keep ∧ g'.lock = g.lock) ∨
       (m.op = .acquire ∧ g.lock = none ∧ g'.lock = some p) ∨
       (m.op = .release ∧ g'.lock = none)) := by
  simp only [step] at h
  cases hr : M.run g.lock.isSome (g.proc p) g.shared i with
  | none => simp [hr] at h
  | some m =>
    simp only [hr] at h
    refine ⟨m, rfl, ?_⟩
    cases hop : m.op with
    | keep =>
      simp only [hop, Option.some.injEq] at h
      subst h
      exact ⟨rfl, rfl, rfl, .inl ⟨rfl, rfl⟩⟩
    | acquire =>
      simp only [hop, Option.isNone_iff_eq_none] at h
      split at h
      · next free =>
        cases h
        exact ⟨rfl, rfl, rfl, .inr (.inl ⟨rfl, free, rfl⟩)⟩
      · cases h
    | release =>
      simp only [hop, Option.some.injEq] at h
      subst h
      exact ⟨rfl, rfl, rfl, .inr (.inr ⟨rfl, rfl⟩)⟩

/-- A statement that can run makes a step, unless it wants a mutex that is held. -/
theorem step_isSome {p : P} {i : I} {m : Move L S O} (h : M.run g.lock.isSome (g.proc p) g.shared i = some m)
    (free : m.op = .acquire → g.lock = none) : (M.step g (.proc p i)).isSome = true := by
  simp only [step, h]
  cases op : m.op with
  | acquire => simp [free op]
  | keep | release => rfl

theorem step_env {e : E} (h : M.step g (.env e) = some g') :
    ∃ s, M.env g.shared e = some s ∧ g' = { g with shared := s } := by
  obtain ⟨s, hs, rfl⟩ := Option.map_eq_some_iff.1 h
  exact ⟨s, hs, rfl⟩

/-- A disciplined program keeps the mutex and the processes inside in step. -/
theorem Held.step (hM : M.Disciplined) (h : M.Held g) {a : Act P I E}
    (hs : M.step g a = some g') : M.Held g' := by
  cases a with
  | env e =>
    obtain ⟨s, -, rfl⟩ := step_env hs
    exact h
  | proc p i =>
    obtain ⟨m, hr, hproc, -, -, hop⟩ := step_proc hs
    intro q
    rw [hproc]
    by_cases hq : q = p
    · subst hq
      rw [upd_same]
      rcases hop with ⟨op, hl⟩ | ⟨op, -, hl⟩ | ⟨op, hl⟩
      · rw [hM.keep hr op, hl]; exact h q
      · rw [(hM.acquire hr op).2, hl]; simp
      · rw [(hM.release hr op).2, hl]; simp
    · rw [upd_other _ _ hq, h q]
      rcases hop with ⟨op, hl⟩ | ⟨op, free, hl⟩ | ⟨op, hl⟩
      · rw [hl]
      · rw [hl, free]; simpa using fun e : p = q => hq e.symm
      · have held := (h p).1 (hM.release hr op).1
        rw [hl, held]; simpa using fun e : p = q => hq e.symm

/-- One step keeps everything that the rules establish. -/
theorem Rules.step (hM : M.Disciplined) (R : M.Rules c J K Q) (h : M.Sound J K Q g) {a : Act P I E}
    (ha : M.ok c g a) (hs : M.step g a = some g') : M.Sound J K Q g' := by
  have held := h.held.step hM hs
  cases a with
  | env e =>
    obtain ⟨s, he, rfl⟩ := step_env hs
    exact ⟨held, R.env h.owner ha.1 he,
      fun p hp => R.bystander h.owner ha.1 hp (h.outside p hp) (ha.2 p hp) he, h.log⟩
  | proc p i =>
    have pok : c.proc (g.proc p) g.shared i := ha
    obtain ⟨m, hr, hproc, hshared, hlog, hop⟩ := step_proc hs
    have self : g'.proc p = m.loc := by rw [hproc, upd_same]
    have other : ∀ q, q ≠ p → g'.proc q = g.proc q := fun q hq => by rw [hproc, upd_other _ _ hq]
    -- the other processes outside keep their assertion whatever `p` does
    have keepK : ∀ q, q ≠ p → M.inside (g'.proc q) = false → K (g'.proc q) g'.shared := by
      intro q hq ho
      rw [other q hq] at ho ⊢
      rw [hshared]
      exact R.others h.owner pok hr ho (h.outside q ho)
    have logQ : ∀ r ∈ g'.log, Q r := by
      intro r hr'
      rw [hlog, List.mem_append, Option.mem_toList] at hr'
      rcases hr' with old | new
      · exact h.log r old
      · exact R.out h.owner (fun hi => owner_of_lock ((h.held p).1 hi)) (h.outside p) pok hr new
    rcases hop with ⟨op, hl⟩ | ⟨op, free, hl⟩ | ⟨op, hl⟩
    · have same := hM.keep hr op
      cases hin : M.inside (g.proc p) with
      | true =>
        have own : g.owner = some (g.proc p) := owner_of_lock ((h.held p).1 hin)
        have own' : g'.owner = some m.loc := by
          rw [owner_of_lock (hl.trans ((h.held p).1 hin)), self]
        refine ⟨held, ?_, ?_, logQ⟩
        · rw [own', hshared]; exact R.own (own ▸ h.owner) hin pok hr op
        · intro q hq
          by_cases hqp : q = p
          · subst hqp; rw [self, same, hin] at hq; cases hq
          · exact keepK q hqp hq
      | false =>
        have unchanged : m.shared = g.shared := hM.frame hr op hin
        have notMe : g.lock ≠ some p := fun e => by simpa [hin] using (h.held p).2 e
        have own' : g'.owner = g.owner := by
          simp only [Global.owner, hl]
          cases hlk : g.lock with
          | none => rfl
          | some q => simp [other q fun e => notMe (e ▸ hlk)]
        refine ⟨held, ?_, ?_, logQ⟩
        · rw [own', hshared, unchanged]; exact h.owner
        · intro q hq
          by_cases hqp : q = p
          · subst hqp
            rw [self, hshared, unchanged]
            exact R.outside h.owner hin (h.outside q hin) pok hr op
          · exact keepK q hqp hq
    · have hin := (hM.acquire hr op).1
      refine ⟨held, ?_, ?_, logQ⟩
      · rw [owner_of_lock hl, self, hshared]
        exact R.enter (owner_of_free free ▸ h.owner) hin (h.outside p hin) pok hr op
      · intro q hq
        by_cases hqp : q = p
        · subst hqp; rw [self, (hM.acquire hr op).2] at hq; cases hq
        · exact keepK q hqp hq
    · have hin := (hM.release hr op).1
      have own : g.owner = some (g.proc p) := owner_of_lock ((h.held p).1 hin)
      obtain ⟨hJ, hK⟩ := R.leave (own ▸ h.owner) hin pok hr op
      refine ⟨held, ?_, ?_, logQ⟩
      · rw [owner_of_free hl, hshared]; exact hJ
      · intro q hq
        by_cases hqp : q = p
        · subst hqp; rw [self, hshared]; exact hK
        · exact keepK q hqp hq

/-- **Soundness of the rules** for every interleaving of any number of
processes. -/
theorem Rules.sound (hM : M.Disciplined) (R : M.Rules c J K Q) {g₀ : Global P L S O}
    (h₀ : M.Sound J K Q g₀) (h : Reach M.step (M.ok c) g₀ g) : M.Sound J K Q g :=
  h.invariant h₀ fun _ _ _ hi ha hs => R.step hM hi ha hs

/-- What every statement keeps of its own process holds of every process. -/
theorem locally {K : L → Prop} {ok : Global P L S O → Act P I E → Prop} {g₀ : Global P L S O}
    (h₀ : ∀ p, K (g₀.proc p)) (h : Reach M.step ok g₀ g)
    (stmt : ∀ g p i m, ok g (.proc p i) → M.run g.lock.isSome (g.proc p) g.shared i = some m →
      K (g.proc p) → K m.loc) : ∀ p, K (g.proc p) := by
  induction h with
  | start => exact h₀
  | @step g g' a _ ha hs ih =>
    cases a with
    | env e =>
      obtain ⟨s, -, rfl⟩ := step_env hs
      exact ih
    | proc p i =>
      obtain ⟨m, hr, hproc, -⟩ := step_proc hs
      intro q
      rw [hproc]
      by_cases hq : q = p
      · subst hq; rw [upd_same]; exact stmt g q i m ha hr (ih q)
      · rw [upd_other _ _ hq]; exact ih q

/-- Mutual exclusion needs the discipline only. -/
theorem Held.reach (hM : M.Disciplined) {ok : Global P L S O → Act P I E → Prop}
    {g₀ : Global P L S O} (h₀ : M.Held g₀) (h : Reach M.step ok g₀ g) : M.Held g :=
  h.invariant h₀ fun _ _ _ hi _ hs => hi.step hM hs

end Soundness

/-! A device behind the monitor: it moves with the statements of the processes and
the steps of the environment, and nothing in the monitor reads it. -/

/-- How the device moves. -/
structure Watch (L S I E δ : Type*) where
  proc : L → S → I → δ → δ
  env : S → E → δ → δ

variable {δ : Type*}

/-- The monitor with the device beside its shared state. -/
def watched (M : Monitor L S I E O) (w : Watch L S I E δ) : Monitor L (S × δ) I E O where
  run b l s i := (M.run b l s.1 i).map fun m => { m with shared := (m.shared, w.proc l s.1 i s.2) }
  env s e := (M.env s.1 e).map fun s' => (s', w.env s.1 e s.2)
  inside := M.inside

/-- A step condition of the monitor, and what the device answers. -/
def Cond.watched (c : Cond L S I E) (answer : S × δ → E → Prop) : Cond L (S × δ) I E where
  env o s e := c.env o s.1 e ∧ answer s e
  bystander l s e := c.bystander l s.1 e
  proc l s i := c.proc l s.1 i

section Watched

variable {M : Monitor L S I E O} {w : Watch L S I E δ} {c : Cond L S I E} {J : Option L → S → Prop}
  {K : L → S → Prop} {Q : O → Prop} {answer : S × δ → E → Prop}

/-- A statement of the watched monitor is one of the monitor. -/
theorem watched_run {b : Bool} {l : L} {s : S × δ} {i : I} {m : Move L (S × δ) O}
    (h : (M.watched w).run b l s i = some m) : ∃ n, M.run b l s.1 i = some n ∧
      m = { n with shared := (n.shared, w.proc l s.1 i s.2) } := by
  obtain ⟨n, hn, rfl⟩ := Option.map_eq_some_iff.1 h
  exact ⟨n, hn, rfl⟩

theorem watched_env {s s' : S × δ} {e : E} (h : (M.watched w).env s e = some s') :
    ∃ t, M.env s.1 e = some t ∧ s' = (t, w.env s.1 e s.2) := by
  obtain ⟨t, ht, rfl⟩ := Option.map_eq_some_iff.1 h
  exact ⟨t, ht, rfl⟩

theorem Disciplined.watched (h : M.Disciplined)
    (still : ∀ l s i d, M.inside l = false → w.proc l s i d = d) : (M.watched w).Disciplined where
  keep hs op := by
    obtain ⟨n, hn, rfl⟩ := watched_run hs
    exact h.keep hn op
  acquire hs op := by
    obtain ⟨n, hn, rfl⟩ := watched_run hs
    exact h.acquire hn op
  release hs op := by
    obtain ⟨n, hn, rfl⟩ := watched_run hs
    exact h.release hn op
  frame {b l s i m} hs op out := by
    obtain ⟨n, hn, rfl⟩ := watched_run hs
    exact Prod.ext (h.frame hn op out) (still l s.1 i s.2 out)

/-- What the rules establish holds with any device behind the monitor. -/
theorem Rules.watched (R : M.Rules c J K Q) :
    (M.watched w).Rules (c.watched answer) (fun o s => J o s.1) (fun l s => K l s.1) Q where
  env h ok hs := by
    obtain ⟨t, ht, rfl⟩ := watched_env hs
    exact R.env h ok.1 ht
  bystander h ok out k by_ hs := by
    obtain ⟨t, ht, rfl⟩ := watched_env hs
    exact R.bystander h ok.1 out k by_ ht
  own h inside ok hs op := by
    obtain ⟨n, hn, rfl⟩ := watched_run hs
    exact R.own h inside ok hn op
  leave h inside ok hs op := by
    obtain ⟨n, hn, rfl⟩ := watched_run hs
    exact R.leave h inside ok hn op
  enter h out k ok hs op := by
    obtain ⟨n, hn, rfl⟩ := watched_run hs
    exact R.enter h out k ok hn op
  outside h out k ok hs op := by
    obtain ⟨n, hn, rfl⟩ := watched_run hs
    exact R.outside h out k ok hn op
  others h ok hs out k := by
    obtain ⟨n, hn, rfl⟩ := watched_run hs
    exact R.others h ok hn out k
  out h own k ok hs hr := by
    obtain ⟨n, hn, rfl⟩ := watched_run hs
    exact R.out h own k ok hn hr

end Watched

end Monitor

end Beaglebone.Machine
