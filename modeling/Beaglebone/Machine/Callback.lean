import Mathlib.Tactic.Common
import Beaglebone.Machine.Run

/-!
# A callback and the exit function that ends it

A source (an interrupt line, a timer) may call a function of the module at any moment
while it is armed; the statements of that function use some resources. The exit function
disarms the source, with or without waiting for a call in progress (`Stop`), and releases
the resources. A call is in order if it runs only while the module is there and holds what
it uses.

All calls in all runs are in order exactly if the exit function waits for the callback
before it releases anything that the callback uses (`inOrder_iff`).
-/

namespace Beaglebone.Machine

/-- A statement of the exit function. -/
inductive Stop (ρ : Type) where
  | release (r : ρ)
  /-- no call begins any more -/
  | cancel
  /-- as `cancel`, once no call is in progress -/
  | await
  deriving DecidableEq, Repr

structure Callback (ρ : Type) where
  uses : List ρ
  /-- the source stays armed when it calls -/
  again : Bool
  exit : List (Stop ρ)

/-- A module that has been loaded. -/
structure Armed (ρ : Type) where
  armed : Bool := true
  /-- a call is in progress -/
  busy : Bool := false
  released : List ρ := []
  /-- what is left of the exit function, once it has been called -/
  todo : Option (List (Stop ρ)) := none
  deriving DecidableEq, Repr

inductive CallbackAct where
  /-- the source calls; there are no two calls at once -/
  | fire
  /-- the next statement of the call, and whether it is the last -/
  | callback (last : Bool)
  /-- the next statement of the exit function, or its call -/
  | exit
  deriving DecidableEq, Repr

variable {ρ : Type} [DecidableEq ρ]

def Callback.step (L : Callback ρ) (g : Armed ρ) : CallbackAct → Option (Armed ρ)
  | .fire => if g.armed ∧ g.busy = false then some { g with armed := L.again, busy := true } else none
  | .callback last => if g.busy then some { g with busy := !last } else none
  | .exit => match g.todo with
    | none => some { g with todo := some L.exit }
    | some [] => none
    | some (.release r :: rest) => some { g with released := r :: g.released, todo := some rest }
    | some (.cancel :: rest) => some { g with armed := false, todo := some rest }
    | some (.await :: rest) => if g.busy then none else some { g with armed := false, todo := some rest }

/-- The module is there, with what the callback uses. -/
def Callback.Ready (L : Callback ρ) (g : Armed ρ) : Prop := g.todo ≠ some [] ∧ ∀ r ∈ L.uses, r ∉ g.released

/-- Every statement of a call, in every run, finds what it uses. -/
def Callback.InOrder (L : Callback ρ) : Prop :=
  ∀ g g' last, Reach L.step always {} g → L.step g (.callback last) = some g' → L.Ready g

/-- The exit function waits for the callback before it releases what that uses. -/
def Guards (uses : List ρ) : List (Stop ρ) → Bool
  | [] => false
  | .release r :: rest => r ∉ uses && Guards uses rest
  | .cancel :: rest => Guards uses rest
  | .await :: _ => true

section

variable {L : Callback ρ} {g g' : Armed ρ} {a : CallbackAct}

/-- The source has ended, or everything is there and the exit function has yet to wait. -/
def Guarded (L : Callback ρ) (g : Armed ρ) : Prop :=
  g.armed = false ∧ g.busy = false ∨
    (∀ r ∈ L.uses, r ∉ g.released) ∧ Guards L.uses (g.todo.getD L.exit) = true

theorem Guarded.step (h : Guarded L g) (hs : L.step g a = some g') : Guarded L g' := by
  cases a with
  | fire =>
    simp only [Callback.step] at hs
    split at hs
    · next pc =>
      cases hs
      rcases h with ⟨off, -⟩ | there
      · rw [pc.1] at off
        cases off
      · exact .inr there
    · cases hs
  | callback last =>
    simp only [Callback.step] at hs
    split at hs
    · next busy =>
      cases hs
      rcases h with ⟨-, idle⟩ | there
      · rw [idle] at busy
        cases busy
      · exact .inr there
    · cases hs
  | exit =>
    simp only [Callback.step] at hs
    split at hs
    · next loaded =>
      cases hs
      rcases h with ended | ⟨there, guards⟩
      · exact .inl ended
      · rw [loaded] at guards
        exact .inr ⟨there, guards⟩
    · cases hs
    · next r rest todo =>
      cases hs
      rcases h with ended | ⟨there, guards⟩
      · exact .inl ended
      · rw [todo] at guards
        simp only [Option.getD_some, Guards, Bool.and_eq_true, decide_eq_true_eq] at guards
        refine .inr ⟨fun q mem => ?_, guards.2⟩
        have other : q ≠ r := by
          rintro rfl
          exact guards.1 mem
        simp [other, there q mem]
    · next rest todo =>
      cases hs
      rcases h with ⟨off, idle⟩ | ⟨there, guards⟩
      · exact .inl ⟨rfl, idle⟩
      · rw [todo] at guards
        exact .inr ⟨there, guards⟩
    · next rest todo =>
      split at hs
      · cases hs
      · next idle =>
        cases hs
        exact .inl ⟨rfl, by simpa using idle⟩

/-- Without the wait a call outlives what it uses: it begins before the exit function. -/
theorem outlives (more : g.busy = true) (still : ∀ r ∈ L.uses, r ∉ g.released) {todo : List (Stop ρ)}
    (pc : g.todo = some todo) (unguarded : Guards L.uses todo = false) (run : Reach L.step always {} g) :
    ∃ g', Reach L.step always {} g' ∧ g'.busy = true ∧ ¬ L.Ready g' := by
  induction todo generalizing g with
  | nil => exact ⟨g, run, more, fun ready => ready.1 pc⟩
  | cons stop rest ih =>
    cases stop with
    | release r =>
      have next : L.step g .exit = some { g with released := r :: g.released, todo := some rest } := by
        simp [Callback.step, pc]
      by_cases used : r ∈ L.uses
      · exact ⟨_, run.step trivial next, more, fun ready => ready.2 r used (by simp)⟩
      · refine ih (g := { g with released := r :: g.released, todo := some rest }) more (fun q mem => ?_) rfl
          (by simpa [Guards, used] using unguarded) (run.step trivial next)
        have other : q ≠ r := by
          rintro rfl
          exact used mem
        simp [other, still q mem]
    | cancel =>
      have next : L.step g .exit = some { g with armed := false, todo := some rest } := by
        simp [Callback.step, pc]
      exact ih (g := { g with armed := false, todo := some rest }) more still rfl unguarded (run.step trivial next)
    | await => cases unguarded

/-- **Exactness.** -/
theorem Callback.inOrder_iff : L.InOrder ↔ Guards L.uses L.exit = true := by
  constructor
  · intro inOrder
    by_contra unguarded
    have fire : L.step {} .fire = some { armed := L.again, busy := true } := by simp [Callback.step]
    have called : L.step { armed := L.again, busy := true } .exit =
        some { armed := L.again, busy := true, todo := some L.exit } := by simp [Callback.step]
    have run : Reach L.step always {} { armed := L.again, busy := true, todo := some L.exit } :=
      (Reach.start.step trivial fire).step trivial called
    obtain ⟨g, run, more, unready⟩ := outlives (L := L) rfl (by simp) rfl (by simpa using unguarded) run
    exact unready (inOrder g { g with busy := false } true run (by simp [Callback.step, more]))
  · intro guards g g' last run hs
    have guarded : Guarded L g := run.invariant (.inr ⟨by simp, guards⟩) fun _ _ _ h _ hs => h.step hs
    have busy : g.busy = true := by
      by_contra idle
      simp [Callback.step, idle] at hs
    rcases guarded with ⟨-, idle⟩ | ⟨there, guards⟩
    · rw [busy] at idle
      cases idle
    · refine ⟨fun gone => ?_, there⟩
      rw [gone] at guards
      cases guards

end

end Beaglebone.Machine
