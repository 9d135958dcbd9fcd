import Mathlib.Data.Nat.Find
import Beaglebone.Machine.Word

/-!
# Bounded polling

`u8 i = 0; while (busy) { …; if (i++ == limit) return -1; } return 0;` over an
endless stream of samples. `pollNext` is one evaluation of the loop condition
and the test after it; `poll` is the whole loop and gives whether it ended by
the condition and the index of the last sample it took. The loop ends for every
stream: it takes at most `limit + 1` samples, although `i` is eight bits wide
and is compared for equality (`poll_le`). `poll_eq_pass` and `poll_eq_fail` say
which sample ends it. `spin` is the loop without a counter, which ends only if a
sample lets it (`spin_isSome_iff`).
-/

namespace Beaglebone.Machine

/-- What one round of the loop does: leave it, give up, or go on with the next
counter value. -/
inductive PollNext where
  | pass
  | fail
  | again (i : U8)
  deriving DecidableEq, Repr

/-- One round, with the counter `i` and the value `busy` of the condition. -/
def pollNext (limit i : U8) (busy : Bool) : PollNext :=
  if busy then if i = limit then .fail else .again (i + 1) else .pass

theorem pollNext_again {limit i j : U8} {busy : Bool} (h : pollNext limit i busy = .again j) :
    busy = true ∧ i ≠ limit ∧ j = i + 1 := by
  unfold pollNext at h
  split at h
  · split at h
    · cases h
    · next hb hi => cases h; exact ⟨hb, hi, rfl⟩
  · cases h

theorem counter_lt {limit i : U8} (h : i ≠ limit) : (limit - (i + 1)).toNat < (limit - i).toNat := by
  bv_omega

/-- The loop from sample `n` with counter `i`. -/
def pollFrom (limit : U8) (busy : Nat → Bool) (i : U8) (n : Nat) : Bool × Nat :=
  match h : pollNext limit i (busy n) with
  | .pass => (true, n)
  | .fail => (false, n)
  | .again j => pollFrom limit busy j (n + 1)
termination_by (limit - i).toNat
decreasing_by
  obtain ⟨-, hi, rfl⟩ := pollNext_again h
  exact counter_lt hi

/-- The whole loop. -/
def poll (limit : U8) (busy : Nat → Bool) : Bool × Nat := pollFrom limit busy 0 0

section

variable {limit i : U8} {busy : Nat → Bool} {n k : Nat}

theorem pollFrom_free (h : busy n = false) : pollFrom limit busy i n = (true, n) := by
  have next : pollNext limit i (busy n) = .pass := by simp [pollNext, h]
  rw [pollFrom]; split <;> simp_all

theorem pollFrom_limit (h : busy n = true) : pollFrom limit busy limit n = (false, n) := by
  have next : pollNext limit limit (busy n) = .fail := by simp [pollNext, h]
  rw [pollFrom]; split <;> simp_all

theorem pollFrom_busy (h : busy n = true) (hi : i ≠ limit) :
    pollFrom limit busy i n = pollFrom limit busy (i + 1) (n + 1) := by
  have next : pollNext limit i (busy n) = .again (i + 1) := by simp [pollNext, h, hi]
  rw [pollFrom]; split <;> simp_all

/-- While the condition holds, the counter and the sample index run together. -/
theorem poll_eq_from (hk : k ≤ limit.toNat) (h : ∀ m < k, busy m = true) :
    poll limit busy = pollFrom limit busy (BitVec.ofNat 8 k) k := by
  induction k with
  | zero => rfl
  | succ k ih =>
    have hi : BitVec.ofNat 8 k ≠ limit := by
      intro e
      have := congrArg BitVec.toNat e
      have := limit.isLt
      simp only [BitVec.toNat_ofNat] at *
      omega
    rw [ih (by omega) fun m hm => h m (by omega), pollFrom_busy (h k (by omega)) hi]
    congr 1
    simp [BitVec.ofNat_add]

/-- The loop ends at the first sample that finds the condition false. -/
theorem poll_eq_pass (hk : k ≤ limit.toNat) (h : ∀ m < k, busy m = true) (free : busy k = false) :
    poll limit busy = (true, k) := by
  rw [poll_eq_from hk h, pollFrom_free free]

/-- It gives up at sample `limit`, the last of `limit + 1` that found the
condition true. -/
theorem poll_eq_fail (h : ∀ m ≤ limit.toNat, busy m = true) : poll limit busy = (false, limit.toNat) := by
  have last : BitVec.ofNat 8 limit.toNat = limit := by simp
  rw [poll_eq_from (Nat.le_refl _) fun m hm => h m (Nat.le_of_lt hm), last,
    pollFrom_limit (h _ (Nat.le_refl _))]

/-- The two ways the loop ends. -/
theorem poll_cases (limit : U8) (busy : Nat → Bool) :
    (∃ k ≤ limit.toNat, (∀ m < k, busy m = true) ∧ busy k = false ∧ poll limit busy = (true, k)) ∨
    ((∀ m ≤ limit.toNat, busy m = true) ∧ poll limit busy = (false, limit.toNat)) := by
  by_cases h : ∃ k, k ≤ limit.toNat ∧ busy k = false
  · refine .inl ⟨Nat.find h, (Nat.find_spec h).1, ?_, (Nat.find_spec h).2, ?_⟩
    · intro m hm
      have bound := (Nat.find_spec h).1
      by_contra hb
      exact Nat.find_min h hm ⟨by omega, by simpa using hb⟩
    · refine poll_eq_pass (Nat.find_spec h).1 ?_ (Nat.find_spec h).2
      intro m hm
      have bound := (Nat.find_spec h).1
      by_contra hb
      exact Nat.find_min h hm ⟨by omega, by simpa using hb⟩
  · have all : ∀ m ≤ limit.toNat, busy m = true := by
      intro m hm
      by_contra hb
      exact h ⟨m, hm, by simpa using hb⟩
    exact .inr ⟨all, poll_eq_fail all⟩

/-- `while (busy);`, for at most `fuel` samples from sample `n` on: the index of the
sample that ended it, if one did. -/
def spinFrom (busy : Nat → Bool) (n : Nat) : Nat → Option Nat
  | 0 => none
  | fuel + 1 => if busy n then spinFrom busy (n + 1) fuel else some n

/-- The whole loop. -/
def spin (busy : Nat → Bool) (fuel : Nat) : Option Nat := spinFrom busy 0 fuel

theorem spinFrom_eq_some {fuel : Nat} (h : spinFrom busy n fuel = some k) : k < n + fuel ∧ busy k = false := by
  induction fuel generalizing n with
  | zero => cases h
  | succ fuel ih =>
    rw [spinFrom] at h
    split at h
    · obtain ⟨lt, free⟩ := ih h
      exact ⟨by omega, free⟩
    · next free => cases h; exact ⟨by omega, by simpa using free⟩

theorem spinFrom_isSome {fuel : Nat} (le : n ≤ k) (lt : k < n + fuel) (free : busy k = false) :
    ∃ m, spinFrom busy n fuel = some m := by
  induction fuel generalizing n with
  | zero => omega
  | succ fuel ih =>
    rw [spinFrom]
    split
    · next held =>
      have later : n ≠ k := by
        rintro rfl
        rw [free] at held
        cases held
      exact ih (by omega) (by omega)
    · exact ⟨n, rfl⟩

/-- The loop ends within the samples exactly if one of them finds the condition
false. -/
theorem spin_isSome_iff {fuel : Nat} : (∃ k < fuel, spin busy fuel = some k) ↔ ∃ k < fuel, busy k = false := by
  constructor
  · rintro ⟨k, lt, h⟩
    exact ⟨k, lt, (spinFrom_eq_some h).2⟩
  · rintro ⟨k, lt, free⟩
    have within : k < 0 + fuel := by omega
    obtain ⟨m, h⟩ := spinFrom_isSome (Nat.zero_le k) within free
    exact ⟨m, by simpa using (spinFrom_eq_some h).1, h⟩

/-- Every run of the loop takes at most `limit + 1` samples. -/
theorem poll_le (limit : U8) (busy : Nat → Bool) : (poll limit busy).2 ≤ limit.toNat := by
  rcases poll_cases limit busy with ⟨k, hk, -, -, he⟩ | ⟨-, he⟩ <;> rw [he]
  exact hk

end

end Beaglebone.Machine
