import Mathlib.Tactic.Common

/-!
# Ledgers

A ledger records every resource acquired and every resource released, also a release
of what is not held. `custody` reads off whether a resource is held at the end, if it
has been acquired and released in turn, and so released once for each time it was
acquired (`custody_count`).
-/

namespace Beaglebone.Machine

inductive Entry (ρ : Type) where
  | acquire (r : ρ)
  | release (r : ρ)
  deriving DecidableEq, Repr

section

variable {ρ : Type} [DecidableEq ρ]

/-- What an entry makes of the custody of `r`: a resource is acquired when it is not
held, and released when it is. -/
def Entry.apply (r : ρ) (held : Option Bool) : Entry ρ → Option Bool
  | .acquire q => if q = r then (if held = some false then some true else none) else held
  | .release q => if q = r then (if held = some true then some false else none) else held

/-- Whether `r` is held at the end; `none` if it has not been acquired and released in
turn. -/
def custody (log : List (Entry ρ)) (r : ρ) : Option Bool := log.foldl (Entry.apply r) (some false)

variable {r q : ρ} {log : List (Entry ρ)} {held : Bool}

@[simp] theorem custody_nil (r : ρ) : custody ([] : List (Entry ρ)) r = some false := rfl

theorem custody_append (log entries : List (Entry ρ)) (r : ρ) :
    custody (log ++ entries) r = entries.foldl (Entry.apply r) (custody log r) := by
  rw [custody, List.foldl_append, custody]

theorem custody_concat (log : List (Entry ρ)) (e : Entry ρ) (r : ρ) :
    custody (log ++ [e]) r = e.apply r (custody log r) := custody_append log [e] r

theorem foldl_apply_none (log : List (Entry ρ)) : log.foldl (Entry.apply r) none = none := by
  induction log with
  | nil => rfl
  | cons e log ih =>
    have lost : e.apply r none = none := by cases e <;> simp [Entry.apply]
    rw [List.foldl_cons, lost, ih]

/-- **Once for each time.** -/
theorem custody_count (h : custody log r = some held) :
    log.count (.acquire r) = log.count (.release r) + held.toNat := by
  have counts : ∀ start : Bool, log.foldl (Entry.apply r) (some start) = some held →
      log.count (.acquire r) + start.toNat = log.count (.release r) + held.toNat := by
    clear h
    induction log with
    | nil =>
      intro start same
      cases same
      rfl
    | cons e log ih =>
      intro start same
      rw [List.foldl_cons] at same
      -- an entry out of turn ends the custody
      have lost := foldl_apply_none (r := r) log
      cases e with
      | acquire q =>
        by_cases mine : q = r
        · subst mine
          cases start with
          | false =>
            have rest := ih true (by simpa [Entry.apply] using same)
            simpa [List.count_cons, Nat.add_right_comm] using rest
          | true => simp [Entry.apply, lost] at same
        · have rest := ih start (by simpa [Entry.apply, mine] using same)
          simpa [List.count_cons, mine] using rest
      | release q =>
        by_cases mine : q = r
        · subst mine
          cases start with
          | true =>
            have rest := ih false (by simpa [Entry.apply] using same)
            simpa [List.count_cons, Nat.add_right_comm] using rest
          | false => simp [Entry.apply, lost] at same
        · have rest := ih start (by simpa [Entry.apply, mine] using same)
          simpa [List.count_cons, mine] using rest
  exact counts false h

end

end Beaglebone.Machine
