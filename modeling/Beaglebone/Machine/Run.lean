import Mathlib.Logic.Function.Basic

/-!
# Runs of a labelled transition system under a step condition

A system is a partial step function `step : σ → α → Option σ`: the label `α`
carries every choice of the scheduler and of the environment, and a step that
is not enabled gives `none`. `Reach step ok s₀` are the states of the runs
whose steps all meet `ok`, a condition on the state before the step and its
label. `Reach.invariant` is the induction rule; `runIf` executes a list of
labels and gives a state of `Reach`. `Throughout` says that every step of a list of
labels meets a condition.
-/

namespace Beaglebone.Machine

variable {σ α : Type*}

/-- Replace the value of a table at one key. -/
def upd {κ β : Type*} [DecidableEq κ] (f : κ → β) (k : κ) (v : β) : κ → β :=
  fun j => if j = k then v else f j

@[simp] theorem upd_same {κ β : Type*} [DecidableEq κ] (f : κ → β) (k : κ) (v : β) :
    upd f k v k = v := by
  simp [upd]

theorem upd_other {κ β : Type*} [DecidableEq κ] (f : κ → β) {j k : κ} (v : β) (h : j ≠ k) :
    upd f k v j = f j := by
  simp [upd, h]

/-- The states reached from `s₀` by steps that all meet `ok`. -/
inductive Reach (step : σ → α → Option σ) (ok : σ → α → Prop) (s₀ : σ) : σ → Prop where
  | start : Reach step ok s₀ s₀
  | step {s s' : σ} {a : α} : Reach step ok s₀ s → ok s a → step s a = some s' →
      Reach step ok s₀ s'

/-- The condition that every step meets. -/
def always : σ → α → Prop := fun _ _ => True

instance (s : σ) (a : α) : Decidable (always s a) := .isTrue trivial

section Reach

variable {step : σ → α → Option σ} {ok ok' : σ → α → Prop} {s₀ s : σ}

/-- **The invariant rule.** What holds initially and is kept by every step that
meets `ok` holds in every state of such a run. -/
theorem Reach.invariant {inv : σ → Prop} (h : Reach step ok s₀ s) (hinit : inv s₀)
    (hstep : ∀ s a s', inv s → ok s a → step s a = some s' → inv s') : inv s := by
  induction h with
  | start => exact hinit
  | step _ hok hs ih => exact hstep _ _ _ ih hok hs

/-- A run is also a run of any weaker condition, where the weakening may use an
invariant of the run. -/
theorem Reach.weaken {inv : σ → Prop} (h : Reach step ok s₀ s) (hinit : inv s₀)
    (hstep : ∀ s a s', inv s → ok s a → step s a = some s' → inv s')
    (hok : ∀ s a, inv s → ok s a → ok' s a) : Reach step ok' s₀ s := by
  have both : inv s ∧ Reach step ok' s₀ s := by
    induction h with
    | start => exact ⟨hinit, .start⟩
    | step _ ha hs ih => exact ⟨hstep _ _ _ ih.1 ha hs, .step ih.2 (hok _ _ ih.1 ha) hs⟩
  exact both.2

end Reach

section Execution

variable (step : σ → α → Option σ) (ok : σ → α → Prop) [∀ s a, Decidable (ok s a)]

/-- Execute a list of labels, each of which must be enabled and meet `ok`. -/
def runIf : σ → List α → Option σ
  | s, [] => some s
  | s, a :: as => if ok s a then (step s a).bind fun s' => runIf s' as else none

variable {step ok}

theorem runIf_cons {s s' : σ} {a : α} {as : List α} :
    runIf step ok s (a :: as) = some s' ↔ ∃ t, ok s a ∧ step s a = some t ∧ runIf step ok t as = some s' := by
  rw [runIf]
  split
  · next ha => simp [ha, Option.bind_eq_some_iff]
  · next ha => simp [ha]

theorem Reach.runIf {s₀ s s' : σ} (h : Reach step ok s₀ s) {as : List α}
    (hr : runIf step ok s as = some s') : Reach step ok s₀ s' := by
  induction as generalizing s with
  | nil => simp only [Machine.runIf, Option.some.injEq] at hr; exact hr ▸ h
  | cons a as ih =>
    simp only [Machine.runIf] at hr
    split at hr
    · next ha =>
      obtain ⟨t, ht, hr⟩ := Option.bind_eq_some_iff.1 hr
      exact ih (.step h ha ht) hr
    · cases hr

variable (step ok) in
/-- An executed list of labels is a run, to a state of which everything decidable
can be read off. -/
theorem exists_reach (p : σ → Prop) [DecidablePred p] (s : σ) (as : List α)
    (h : (runIf step ok s as).any (p ·) = true) : ∃ t, Reach step ok s t ∧ p t := by
  cases run : runIf step ok s as with
  | none => rw [run] at h; cases h
  | some t =>
    rw [run] at h
    exact ⟨t, Reach.start.runIf run, of_decide_eq_true h⟩

end Execution

section Throughout

variable (step : σ → α → Option σ)

/-- Every step that the labels take from `s` meets `p`, a condition on the step. -/
def Throughout (p : σ → α → σ → Prop) : σ → List α → Prop
  | _, [] => True
  | s, a :: as => ∀ s', step s a = some s' → p s a s' ∧ Throughout p s' as

variable {step}

/-- **The exactness rule.** Two conditions that agree on every step from a state that
meets an invariant, which either of them keeps, agree on every run. -/
theorem throughout_iff {inv : σ → Prop} {p q : σ → α → σ → Prop}
    (exact : ∀ s a s', inv s → step s a = some s' → (p s a s' ↔ q s a s'))
    (keep : ∀ s a s', inv s → step s a = some s' → p s a s' → inv s') {s : σ} (h : inv s) (as : List α) :
    Throughout step p s as ↔ Throughout step q s as := by
  induction as generalizing s with
  | nil => exact Iff.rfl
  | cons a as ih =>
    constructor
    · intro all s' hs
      obtain ⟨here, later⟩ := all s' hs
      exact ⟨(exact s a s' h hs).1 here, (ih (keep s a s' h hs here)).1 later⟩
    · intro all s' hs
      obtain ⟨here, later⟩ := all s' hs
      have met := (exact s a s' h hs).2 here
      exact ⟨met, (ih (keep s a s' h hs met)).2 later⟩

end Throughout

end Beaglebone.Machine
