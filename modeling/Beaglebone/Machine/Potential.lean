import Mathlib.Tactic.Common
import Beaglebone.Machine.Run

/-!
# Bounding a run by a potential

A potential `μ` pays for the steps: a step may cost something and may bring
something in, and the potential after it covers the difference. Over a run the
costs are bounded by what the run began with and what it was given.
-/

namespace Beaglebone.Machine

variable {σ α : Type*} {step : σ → α → Option σ} {ok : σ → α → Prop} [∀ s a, Decidable (ok s a)]

/-- What the labels of a run amount to. -/
def total (f : α → Nat) : List α → Nat
  | [] => 0
  | a :: as => f a + total f as

@[simp] theorem total_cons (f : α → Nat) (a : α) (as : List α) : total f (a :: as) = f a + total f as := rfl

@[simp] theorem total_zero (as : List α) : total (fun _ => 0) as = 0 := by
  induction as with
  | nil => rfl
  | cons a as ih => rw [total_cons, ih]

theorem total_add (f g : α → Nat) (as : List α) : total (fun a => f a + g a) as = total f as + total g as := by
  induction as with
  | nil => rfl
  | cons a as ih => rw [total_cons, total_cons, total_cons, ih, Nat.add_add_add_comm]

theorem total_mul (k : Nat) (f : α → Nat) (as : List α) : total (fun a => k * f a) as = k * total f as := by
  induction as with
  | nil => rfl
  | cons a as ih => rw [total_cons, total_cons, ih, Nat.mul_add]

/-- **The potential rule.** -/
theorem runIf_potential (μ : σ → Nat) (cost gain : α → Nat)
    (pays : ∀ s a s', ok s a → step s a = some s' → μ s' + cost a ≤ μ s + gain a) {s s' : σ} {as : List α}
    (run : runIf step ok s as = some s') : μ s' + total cost as ≤ μ s + total gain as := by
  induction as generalizing s with
  | nil =>
    obtain rfl : s = s' := by simpa [runIf] using run
    exact Nat.le_refl _
  | cons a as ih =>
    obtain ⟨t, ha, ht, run⟩ := runIf_cons.1 run
    have first := pays s a t ha ht
    have rest := ih run
    simp only [total_cons]
    omega

end Beaglebone.Machine
