import Mathlib.Tactic.Common

/-!
# Scripts: straight-line code over external operations

A C function that only calls external operations and branches on their results
is a `Script`: given the results, the list of operations it performs and the
value it returns. `exec` says what one operation does to a state; it gives `none`
when the thread that performs it dies there. `Along` says that `here` holds at
every operation of a list and, if the list runs to its end, `Q` holds there;
`Ensures` is the triple built on it. With `here` always true it is a partial
correctness triple. `Finishes` is the triple of total correctness.
-/

namespace Beaglebone.Machine

/-- The operations performed and the value returned. -/
structure Script (Op : Type) (α : Type) where
  ops : List Op
  val : α

variable {Op α β S : Type}

namespace Script

instance : Monad (Script Op) where
  pure a := ⟨[], a⟩
  bind m f := ⟨m.ops ++ (f m.val).ops, (f m.val).val⟩

/-- Perform one operation. -/
def emit (op : Op) : Script Op Unit := ⟨[op], ()⟩

/-- Perform operations in order. -/
def emits (ops : List Op) : Script Op Unit := ⟨ops, ()⟩

/-- The same script over other operations. -/
def lift {Op' : Type} (g : Op → Op') (m : Script Op α) : Script Op' α := ⟨m.ops.map g, m.val⟩

@[simp] theorem lift_ops {Op' : Type} (g : Op → Op') (m : Script Op α) : (m.lift g).ops = m.ops.map g := rfl
@[simp] theorem lift_val {Op' : Type} (g : Op → Op') (m : Script Op α) : (m.lift g).val = m.val := rfl
@[simp] theorem pure_ops (a : α) : (pure a : Script Op α).ops = [] := rfl
@[simp] theorem pure_val (a : α) : (pure a : Script Op α).val = a := rfl
@[simp] theorem bind_ops (m : Script Op α) (f : α → Script Op β) :
    (m >>= f).ops = m.ops ++ (f m.val).ops := rfl
@[simp] theorem bind_val (m : Script Op α) (f : α → Script Op β) : (m >>= f).val = (f m.val).val := rfl
@[simp] theorem emit_ops (op : Op) : (emit op).ops = [op] := rfl
@[simp] theorem emits_ops (ops : List Op) : (emits ops).ops = ops := rfl

/-- A property of every operation. -/
theorem all_bind {p : Op → Prop} {m : Script Op α} {f : α → Script Op β} (h : ∀ op ∈ m.ops, p op)
    (k : ∀ op ∈ (f m.val).ops, p op) : ∀ op ∈ (m >>= f).ops, p op := by
  intro op mem
  rcases List.mem_append.1 mem with mem | mem
  · exact h op mem
  · exact k op mem

theorem all_ite {p : Op → Prop} {c : Prop} [Decidable c] {m n : Script Op α} (yes : ∀ op ∈ m.ops, p op)
    (no : ∀ op ∈ n.ops, p op) : ∀ op ∈ (if c then m else n).ops, p op := by
  split
  · exact yes
  · exact no

end Script

section Along

variable (exec : S → Op → Option S) (here : S → Op → Prop)

/-- Execute a list of operations. -/
def execAll : S → List Op → Option S
  | s, [] => some s
  | s, op :: ops => (exec s op).bind fun s' => execAll s' ops

/-- `here` at every operation, and `Q` at the end. -/
def Along (Q : S → Prop) : S → List Op → Prop
  | s, [] => Q s
  | s, op :: ops => here s op ∧ ∀ s', exec s op = some s' → Along Q s' ops

/-- `m` is safe from every state that meets `P`, and ends in `Q`. -/
def Ensures (P : S → Prop) (m : Script Op α) (Q : α → S → Prop) : Prop :=
  ∀ s, P s → Along exec here (Q m.val) s m.ops

/-- `m` runs to its end from every state that meets `P`, and ends in `Q`. -/
def Finishes (P : S → Prop) (m : Script Op α) (Q : α → S → Prop) : Prop :=
  ∀ s, P s → ∃ s', execAll exec s m.ops = some s' ∧ Q m.val s'

/-- From every state that meets `P`, the thread dies in `m`. -/
def Dies (P : S → Prop) (m : Script Op α) : Prop :=
  ∀ s, P s → execAll exec s m.ops = none

variable {exec here} {P P' : S → Prop} {Q Q' : S → Prop} {s s' : S} {ops ops' : List Op} {op : Op}

theorem Along.imp (h : Along exec here Q s ops) (q : ∀ s, Q s → Q' s) : Along exec here Q' s ops := by
  induction ops generalizing s with
  | nil => exact q s h
  | cons op ops ih => exact ⟨h.1, fun s' hs => ih (h.2 s' hs)⟩

/-- **Sequencing.** -/
theorem Along.append (h : Along exec here (fun t => Along exec here Q t ops') s ops) :
    Along exec here Q s (ops ++ ops') := by
  induction ops generalizing s with
  | nil => exact h
  | cons op ops ih => exact ⟨h.1, fun s' hs => ih (h.2 s' hs)⟩

/-- What holds along a list holds at its end. -/
theorem Along.final (h : Along exec here Q s ops) (hs : execAll exec s ops = some s') : Q s' := by
  induction ops generalizing s with
  | nil => cases hs; exact h
  | cons op ops ih =>
    obtain ⟨t, ht, hs⟩ := Option.bind_eq_some_iff.1 hs
    exact ih (h.2 t ht) hs

theorem execAll_append (s : S) (ops ops' : List Op) :
    execAll exec s (ops ++ ops') = (execAll exec s ops).bind fun t => execAll exec t ops' := by
  induction ops generalizing s with
  | nil => rfl
  | cons op ops ih =>
    show (exec s op).bind _ = ((exec s op).bind _).bind _
    rw [Option.bind_assoc]
    exact congrArg _ (funext ih)

/-- Nothing is asked of the operations, only of the end. -/
theorem along_of_final (safe : ∀ s, ∀ op ∈ ops, here s op)
    (final : ∀ s', execAll exec s ops = some s' → Q s') : Along exec here Q s ops := by
  induction ops generalizing s with
  | nil => exact final s rfl
  | cons op ops ih =>
    refine ⟨safe s op (by simp), fun t ht => ih (fun s q mem => safe s q (by simp [mem])) fun s' hs => ?_⟩
    exact final s' (by rw [execAll, ht]; exact hs)

/-- An operation whose effect is known. -/
theorem Along.cons (h : here s op) (he : exec s op = some s') (rest : Along exec here Q s' ops) :
    Along exec here Q s (op :: ops) :=
  ⟨h, fun t ht => by rw [he, Option.some.injEq] at ht; exact ht ▸ rest⟩

/-- Operations that keep an assertion. -/
theorem along_of_forall (safe : ∀ s, Q s → ∀ op ∈ ops, here s op)
    (keep : ∀ s s', Q s → ∀ op ∈ ops, exec s op = some s' → Q s') (h : Q s) : Along exec here Q s ops := by
  induction ops generalizing s with
  | nil => exact h
  | cons op ops ih =>
    refine ⟨safe s h op (by simp), fun s' hs => ih ?_ ?_ (keep s s' h op (by simp) hs)⟩
    · exact fun s hq op mem => safe s hq op (List.mem_cons_of_mem _ mem)
    · exact fun s s' hq op mem => keep s s' hq op (List.mem_cons_of_mem _ mem)

section Rules

variable {R : α → S → Prop} {T : β → S → Prop} {m : Script Op α} {f : α → Script Op β}

theorem Ensures.pure {a : α} (h : ∀ s, P s → R a s) :
    Ensures exec here P (Pure.pure a : Script Op α) R := h

theorem Ensures.bind (h : Ensures exec here P m R) (k : Ensures exec here (R m.val) (f m.val) T) :
    Ensures exec here P (m >>= f) T :=
  fun s hs => ((h s hs).imp k).append

theorem Ensures.ite {c : Prop} [Decidable c] {n : Script Op α} (yes : c → Ensures exec here P m R)
    (no : ¬ c → Ensures exec here P n R) : Ensures exec here P (if c then m else n) R := by
  split
  · next h => exact yes h
  · next h => exact no h

theorem Ensures.pre (h : Ensures exec here P m R) (pre : ∀ s, P' s → P s) : Ensures exec here P' m R :=
  fun s hs => h s (pre s hs)

theorem Ensures.conseq (h : Ensures exec here P m R) (pre : ∀ s, P' s → P s)
    {R' : α → S → Prop} (post : ∀ s, R m.val s → R' m.val s) : Ensures exec here P' m R' :=
  fun s hs => (h s (pre s hs)).imp post

theorem Finishes.pure {a : α} (h : ∀ s, P s → R a s) : Finishes exec P (Pure.pure a : Script Op α) R :=
  fun s hs => ⟨s, rfl, h s hs⟩

theorem Finishes.bind (h : Finishes exec P m R) (k : Finishes exec (R m.val) (f m.val) T) :
    Finishes exec P (m >>= f) T := by
  intro s hs
  obtain ⟨t, ht, rt⟩ := h s hs
  obtain ⟨u, hu, tu⟩ := k t rt
  exact ⟨u, by rw [Script.bind_ops, execAll_append, ht]; exact hu, tu⟩

theorem Finishes.ite {c : Prop} [Decidable c] {n : Script Op α} (yes : c → Finishes exec P m R)
    (no : ¬ c → Finishes exec P n R) : Finishes exec P (if c then m else n) R := by
  split
  · next h => exact yes h
  · next h => exact no h

theorem Finishes.pre (h : Finishes exec P m R) (pre : ∀ s, P' s → P s) : Finishes exec P' m R :=
  fun s hs => h s (pre s hs)

/-- Operations that succeed and keep an assertion. -/
theorem Finishes.of_forall (keep : ∀ s, P s → ∀ op ∈ m.ops, ∃ s', exec s op = some s' ∧ P s') :
    Finishes exec P m fun _ => P := by
  have all : ∀ ops : List Op, (∀ op ∈ ops, op ∈ m.ops) → ∀ s, P s → ∃ s', execAll exec s ops = some s' ∧ P s' := by
    intro ops
    induction ops with
    | nil => exact fun _ s hs => ⟨s, rfl, hs⟩
    | cons op ops ih =>
      intro mem s hs
      obtain ⟨t, ht, pt⟩ := keep s hs op (mem op (by simp))
      obtain ⟨u, hu, pu⟩ := ih (fun q hq => mem q (by simp [hq])) t pt
      exact ⟨u, by rw [execAll, ht]; exact hu, pu⟩
  exact all m.ops fun _ => id

theorem Dies.bind (h : Dies exec P m) : Dies exec P (m >>= f) := by
  intro s hs
  rw [Script.bind_ops, execAll_append, h s hs]
  rfl

theorem Dies.of_ensures (h : Ensures exec here P m fun _ _ => False) : Dies exec P m := by
  intro s hs
  by_contra alive
  obtain ⟨s', hs'⟩ := Option.ne_none_iff_exists'.1 alive
  exact (h s hs).final hs'

end Rules

end Along

end Beaglebone.Machine
