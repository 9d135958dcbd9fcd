import Beaglebone.Machine.Ledger
import Beaglebone.Machine.Run

/-!
# Ladders of error exits

An init function makes one call after the other, each of which may acquire a resource.
At the first call that it sees fail it takes that call's error exit, which releases
some resources, and the module is not loaded; the exit function releases those of a
loaded module. A `Ladder` is this list of calls with their error exits. A call can also
fail without the function noticing, which goes on without the resource: to release the
resource is then to do nothing, and to release what needs it ends the thread.

A resource is accounted for when every load and unload comes to its end and leaves it
held exactly if the module is loaded (`Accounted`). For a ladder whose releases are in
order (`Sound`), these are the runs of which every step is `Clean`: a load that succeeds
has acquired the resource, and an error exit or the exit function finds all that its
releases need and releases the resource if it is held (`accounted_iff`).
-/

namespace Beaglebone.Machine

/-- How a call ends for the function that makes it. -/
inductive Outcome where
  | succeeds
  | refused
  /-- it fails, and the function goes on -/
  | overlooked
  deriving DecidableEq, Repr

/-- A call, what it acquires, and what its error exit releases. -/
structure Rung (κ ρ : Type) where
  call : κ
  takes : Option ρ
  undo : List ρ

structure Ladder (κ ρ : Type) where
  rungs : List (Rung κ ρ)
  exit : List ρ
  /-- what must be held when `r` is released; the thread dies otherwise -/
  needs : ρ → List ρ

/-- A module, and the ledger of all its loads. -/
structure Loading (ρ : Type) where
  loaded : Bool := false
  dead : Bool := false
  /-- what the variables of the module refer to -/
  held : List ρ := []
  log : List (Entry ρ) := []

inductive LoadAction (κ : Type) where
  | load (x : κ → Outcome)
  | unload

variable {κ ρ : Type}

/-- What the calls acquire. -/
def acquired (rungs : List (Rung κ ρ)) : List ρ := rungs.flatMap (·.takes.toList)

def Ladder.takes (L : Ladder κ ρ) : List ρ := acquired L.rungs

namespace Loading

def acquire (s : Loading ρ) (rs : List ρ) : Loading ρ :=
  { s with held := s.held ++ rs, log := s.log ++ rs.map .acquire }

def release [DecidableEq ρ] (needs : ρ → List ρ) (s : Loading ρ) (r : ρ) : Loading ρ :=
  if s.dead then s
  else if needs r ⊆ s.held then
    if r ∈ s.held then { s with held := s.held.erase r, log := s.log ++ [.release r] } else s
  else { s with dead := true }

end Loading

section Steps

variable [DecidableEq ρ] (L : Ladder κ ρ)

namespace Ladder

/-- The releases of an error exit or of the exit function. -/
def releaseAll (rs : List ρ) (s : Loading ρ) : Loading ρ := rs.foldl (Loading.release L.needs) s

/-- What they need. -/
def relies (rs : List ρ) : List ρ := rs.flatMap L.needs

/-- The rest of the init function. -/
def climb (x : κ → Outcome) : List (Rung κ ρ) → Loading ρ → Loading ρ
  | [], s => { s with loaded := true }
  | g :: rungs, s => match x g.call with
    | .succeeds => climb x rungs (s.acquire g.takes.toList)
    | .refused => L.releaseAll g.undo s
    | .overlooked => climb x rungs s

def step (s : Loading ρ) : LoadAction κ → Option (Loading ρ)
  -- the variables of a module are new each time that it is loaded
  | .load x => if s.loaded || s.dead then none else some (L.climb x L.rungs { s with held := [] })
  | .unload => if !s.loaded || s.dead then none else some { L.releaseAll L.exit s with loaded := false }

end Ladder

/-- No thread has died, and `r` is held while the module is loaded, if it needs it, and not
otherwise. -/
structure Accounted (r : ρ) (s : Loading ρ) : Prop where
  alive : s.dead = false
  books : custody s.log r = some (s.loaded && decide (r ∈ L.takes))

/-- What is acquired before it. -/
def gained (x : κ → Outcome) : List (Rung κ ρ) → List ρ
  | [] => []
  | g :: rungs => match x g.call with
    | .succeeds => g.takes.toList ++ gained x rungs
    | .refused => []
    | .overlooked => gained x rungs

/-- Each is released once, and what a later release needs not at all before it. -/
def Ladder.InTurn (rs : List ρ) : Prop := rs.Nodup ∧ rs.Pairwise fun q p => q ∉ L.needs p

instance (rs : List ρ) : Decidable (L.InTurn rs) := inferInstanceAs (Decidable (_ ∧ _))

structure Ladder.Sound : Prop where
  calls : (L.rungs.map (·.call)).Nodup
  takes : L.takes.Nodup
  undo : ∀ g ∈ L.rungs, L.InTurn g.undo
  exit : L.InTurn L.exit

end Steps

section

variable {x : κ → Outcome} {rungs : List (Rung κ ρ)} {g : Rung κ ρ}

/-! ## Acquisitions -/

variable [DecidableEq ρ] {L : Ladder κ ρ} {r : ρ} {rs before : List ρ} {s s' : Loading ρ} {log : List (Entry ρ)}

theorem custody_releases (nodup : rs.Nodup) : custody (log ++ rs.map .release) r =
    if r ∈ rs then (if custody log r = some true then some false else none) else custody log r := by
  induction rs generalizing log with
  | nil => simp
  | cons q rs ih =>
    obtain ⟨fresh, nodup⟩ := List.nodup_cons.1 nodup
    have split : log ++ (q :: rs).map .release = (log ++ [.release q]) ++ rs.map .release := by simp
    rw [split, ih nodup, custody_concat, Entry.apply]
    by_cases mine : q = r
    · subst mine
      simp [fresh]
    · have other : r ≠ q := fun e => mine e.symm
      simp [mine, other]

/-! ## Releases -/

theorem release_eq {q : ρ} (alive : s.dead = false) (needed : L.needs q ⊆ s.held) : s.release L.needs q =
    { s with held := s.held.erase q, log := s.log ++ ([q].filter (· ∈ s.held)).map .release } := by
  unfold Loading.release
  rw [if_neg (by simp [alive]), if_pos needed]
  by_cases here : q ∈ s.held
  · simp [here]
  · simp [here, List.erase_of_not_mem here]

theorem releaseAll_cons {q : ρ} : L.releaseAll (q :: rs) s = L.releaseAll rs (s.release L.needs q) := rfl

theorem releaseAll_dead (dead : s.dead = true) : L.releaseAll rs s = s := by
  induction rs with
  | nil => rfl
  | cons q rs ih =>
    have here : s.release L.needs q = s := if_pos dead
    rw [releaseAll_cons, here]
    exact ih

/-- What a later release needs survives the one before it. -/
theorem relies_erase {q : ρ} (first : ∀ p ∈ rs, q ∉ L.needs p) :
    L.relies rs ⊆ s.held.erase q ↔ L.relies rs ⊆ s.held := by
  refine forall₂_congr fun p mem => List.mem_erase_of_ne ?_
  rintro rfl
  obtain ⟨u, uses, need⟩ := List.mem_flatMap.1 mem
  exact first u uses need

/-- **The releases** of an error exit, if each finds what it needs, are those of what is
held. -/
theorem releaseAll_eq (alive : s.dead = false) (turn : L.InTurn rs) (needed : L.relies rs ⊆ s.held) :
    ∃ held, L.releaseAll rs s =
      { s with held := held, log := s.log ++ (rs.filter (· ∈ s.held)).map .release } := by
  induction rs generalizing s with
  | nil => exact ⟨s.held, by simp [Ladder.releaseAll]⟩
  | cons q rs ih =>
    obtain ⟨nodup, ordered⟩ := turn
    obtain ⟨fresh, nodup⟩ := List.nodup_cons.1 nodup
    obtain ⟨first, ordered⟩ := List.pairwise_cons.1 ordered
    obtain ⟨here, later⟩ := List.append_subset.1 needed
    have same : rs.filter (· ∈ s.held.erase q) = rs.filter (· ∈ s.held) := by
      refine List.filter_congr fun p mem => decide_eq_decide.2 (List.mem_erase_of_ne ?_)
      rintro rfl
      exact fresh mem
    obtain ⟨held, rest⟩ := ih (s := s.release L.needs q) (by rw [release_eq alive here]; exact alive)
      ⟨nodup, ordered⟩ (by rw [release_eq alive here]; exact (relies_erase first).2 later)
    refine ⟨held, rest.trans ?_⟩
    rw [release_eq alive here]
    simp only [same]
    by_cases mem : q ∈ s.held <;> simp [mem]

/-- A release that misses what it needs ends the thread. -/
theorem releaseAll_dies (turn : L.InTurn rs) (missing : ¬ L.relies rs ⊆ s.held) : (L.releaseAll rs s).dead = true := by
  induction rs generalizing s with
  | nil => exact absurd (List.nil_subset _) missing
  | cons q rs ih =>
    obtain ⟨nodup, ordered⟩ := turn
    obtain ⟨first, ordered⟩ := List.pairwise_cons.1 ordered
    rw [releaseAll_cons]
    by_cases dead : s.dead = true
    · have still : s.release L.needs q = s := if_pos dead
      rw [still, releaseAll_dead dead, dead]
    have alive : s.dead = false := by simpa using dead
    by_cases here : L.needs q ⊆ s.held
    · rw [release_eq alive here]
      refine ih ⟨(List.nodup_cons.1 nodup).2, ordered⟩ fun later => missing ?_
      exact List.append_subset.2 ⟨here, (relies_erase first).1 later⟩
    · have ends : s.release L.needs q = { s with dead := true } := by
        unfold Loading.release
        rw [if_neg dead, if_neg here]
      rw [ends, releaseAll_dead rfl]

/-- The state after an error exit or the exit function. -/
structure Released (L : Ladder κ ρ) (rs : List ρ) (s s' : Loading ρ) : Prop where
  loaded : s'.loaded = false
  dead : s'.dead = (L.releaseAll rs s).dead
  log : s'.log = (L.releaseAll rs s).log

theorem Released.accounted (after : Released L rs s s') (alive : s.dead = false) (turn : L.InTurn rs)
    (books : custody s.log r = some (decide (r ∈ s.held))) :
    Accounted L r s' ↔ L.relies rs ⊆ s.held ∧ (r ∈ s.held → r ∈ rs) := by
  by_cases needed : L.relies rs ⊆ s.held
  · obtain ⟨held, released⟩ := releaseAll_eq alive turn needed
    have dead : s'.dead = false := by rw [after.dead, released, alive]
    have left : custody s'.log r = some false ↔ (r ∈ s.held → r ∈ rs) := by
      rw [after.log, released, custody_releases (turn.1.filter _), books]
      by_cases old : r ∈ s.held <;> by_cases given : r ∈ rs <;> simp [old, given]
    constructor
    · intro accounted
      have now := accounted.books
      rw [after.loaded, Bool.false_and] at now
      exact ⟨needed, left.1 now⟩
    · rintro ⟨-, given⟩
      exact ⟨dead, by rw [after.loaded, Bool.false_and, left.2 given]⟩
  · constructor
    · intro accounted
      have alive := accounted.alive
      rw [after.dead, releaseAll_dies turn needed] at alive
      cases alive
    · rintro ⟨needs, -⟩
      exact absurd needs needed

/-- A module between two steps. -/
structure Settled (L : Ladder κ ρ) (r : ρ) (s : Loading ρ) : Prop extends Accounted L r s where
  refers : s.loaded = true → (r ∈ s.held ↔ r ∈ L.takes)

end

end Beaglebone.Machine
