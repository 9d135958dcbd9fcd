import Mathlib.Tactic.Common

/-!
# Secrets in a sequence of calls

A function is called again and again, each time with an input and a secret. If an input
hides its secret, the call does the same whatever the secret is; if it does not, there
are two secrets with different outputs. Then all the outputs of a sequence of calls are
the same for all secrets exactly if each input hides its own (`independent_iff`): a
secret that has been told cannot be taken back by the calls that follow.
-/

namespace Beaglebone.Machine

variable {S I X O : Type}

/-- The outputs of some calls, with the secrets in the order of the calls. -/
def outputs (step : S → I → X → S × O) : S → List I → (Nat → X) → List O
  | _, [], _ => []
  | s, i :: is, xs => (step s i (xs 0)).2 :: outputs step (step s i (xs 0)).1 is fun n => xs (n + 1)

/-- A secret before others. -/
def secretsFrom (x : X) (xs : Nat → X) : Nat → X
  | 0 => x
  | n + 1 => xs n

variable {step : S → I → X → S × O} {hides : I → Prop}

/-- **Exactness.** -/
theorem independent_iff [Nonempty X] (same : ∀ s i x x', hides i → step s i x = step s i x')
    (tells : ∀ s i, ¬ hides i → ∃ x x', (step s i x).2 ≠ (step s i x').2) (s : S) (is : List I) :
    (∀ xs xs', outputs step s is xs = outputs step s is xs') ↔ ∀ i ∈ is, hides i := by
  constructor
  · intro equal
    induction is generalizing s with
    | nil =>
      intro i mem
      cases mem
    | cons i is ih =>
      have first : hides i := by
        by_contra told
        obtain ⟨x, x', ne⟩ := tells s i told
        have heads := List.head_eq_of_cons_eq (equal (fun _ => x) fun _ => x')
        exact ne heads
      have later : ∀ j ∈ is, hides j := by
        obtain ⟨x⟩ := ‹Nonempty X›
        refine ih (step s i x).1 fun xs xs' => ?_
        exact List.tail_eq_of_cons_eq (equal (secretsFrom x xs) (secretsFrom x xs'))
      intro j mem
      rcases List.mem_cons.1 mem with rfl | mem
      · exact first
      · exact later j mem
  · intro all xs xs'
    induction is generalizing s xs xs' with
    | nil => rfl
    | cons i is ih =>
      rw [outputs, outputs, same s i (xs 0) (xs' 0) (all i (List.mem_cons_self ..))]
      rw [ih _ (fun j mem => all j (List.mem_cons_of_mem _ mem)) (fun n => xs (n + 1)) fun n => xs' (n + 1)]

end Beaglebone.Machine
