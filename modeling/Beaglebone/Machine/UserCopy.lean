import Mathlib.Tactic.Common

/-!
# Copies between user and kernel memory

A buffer is the list of its cells. `copyFromUser` and `copyToUser` may fail to copy
some cells at the end; what `copyFromUser` leaves in the destination there is a
choice of the architecture (`Rest`). `cstring` is the string that begins at an address.
-/

namespace Beaglebone.Machine

variable {β : Type}

/-- Write `src` into `dst` from the cell `off` on. -/
def store (dst : List β) (off : Nat) (src : List β) : List β :=
  dst.take off ++ src ++ dst.drop (off + src.length)

/-- What happens to the cells that `copy_from_user` was to write and did not. -/
inductive Rest where
  | zeroed
  | kept
  deriving DecidableEq, Repr

/-- How many of `n` cells are not copied, when `lost` at the end cannot be, and how many are. -/
def notCopied (n lost : Nat) : Nat := min lost n

def copied (n lost : Nat) : Nat := n - notCopied n lost

/-- `copy_from_user(dst + off, src, n)`, where `src` are the `n` cells of the user. -/
def copyFromUser [Zero β] (rest : Rest) (dst : List β) (off : Nat) (src : List β) (lost : Nat) : List β :=
  match rest with
  | .zeroed => store dst off (src.take (copied src.length lost) ++ List.replicate (notCopied src.length lost) 0)
  | .kept => store dst off (src.take (copied src.length lost))

/-- The cells of `src` that `copy_to_user` hands over. -/
def copyToUser (src : List β) (lost : Nat) : List β := src.take (copied src.length lost)

section

variable {dst src : List β} {off k n lost : Nat} {rest : Rest}

theorem copied_le : copied n lost ≤ n := Nat.sub_le ..

@[simp] theorem notCopied_zero : notCopied n 0 = 0 := Nat.zero_min n

@[simp] theorem copied_zero : copied n 0 = n := by simp [copied]

/-- What is to be copied when no more than `n` cells fit. -/
theorem length_take_min (src : List β) (n : Nat) : (src.take (min src.length n)).length = min src.length n := by
  rw [List.length_take]
  omega

theorem length_store (fits : off + src.length ≤ dst.length) : (store dst off src).length = dst.length := by
  simp only [store, List.length_append, List.length_take, List.length_drop]
  omega

/-- What is stored at the beginning of a buffer stands there. -/
theorem store_take (le : k ≤ src.length) : (store dst 0 src).take k = src.take k := by
  rw [store, List.take_zero, List.nil_append, List.take_append_of_le_length le]

/-- **Two runs** that differ in the old content of a buffer of `n` cells have the same
first `k` cells exactly if all of these are stored. -/
theorem store_take_iff [Nontrivial β] (src : List β) (fits : k ≤ n) :
    (∀ old old' : List β, old.length = n → old'.length = n → (store old 0 src).take k = (store old' 0 src).take k) ↔
      k ≤ src.length := by
  constructor
  · intro same
    by_contra more
    obtain ⟨a, b, ne⟩ := exists_pair_ne β
    -- the first cell that is not stored
    have cell : ∀ c : β, ((store (List.replicate n c) 0 src).take k)[src.length]? = some c := by
      intro c
      have left : src.length < k := by omega
      have right : 0 < n - src.length := by omega
      rw [store, List.take_zero, List.nil_append, List.getElem?_take_of_lt left, List.getElem?_append_right (Nat.le_refl _),
        Nat.zero_add, List.drop_replicate, Nat.sub_self, List.getElem?_replicate, if_pos right]
    have cells := cell a
    rw [same _ (List.replicate n b) List.length_replicate List.length_replicate, cell b] at cells
    exact ne (Option.some.inj cells).symm
  · intro le old old' _ _
    rw [store_take le, store_take le]

variable [Zero β]

theorem copyFromUser_complete : copyFromUser rest dst off src 0 = store dst off src := by
  cases rest <;> simp [copyFromUser]

theorem length_copyFromUser (fits : off + src.length ≤ dst.length) :
    (copyFromUser rest dst off src lost).length = dst.length := by
  cases rest with
  | zeroed =>
    refine length_store ?_
    simp only [copied, notCopied, List.length_append, List.length_take, List.length_replicate]
    omega
  | kept =>
    refine length_store ?_
    rw [List.length_take]
    omega

/-- **What is copied** stands at the beginning of the destination. -/
theorem copyFromUser_take (le : k ≤ copied src.length lost) :
    (copyFromUser rest dst 0 src lost).take k = src.take k := by
  have bound : k ≤ (src.take (copied src.length lost)).length := by
    rw [List.length_take]
    exact Nat.le_min.2 ⟨le, Nat.le_trans le copied_le⟩
  have prefixes : (src.take (copied src.length lost)).take k = src.take k := by
    rw [List.take_take, Nat.min_eq_left le]
  cases rest with
  | zeroed =>
    rw [copyFromUser, store_take (by rw [List.length_append]; omega), List.take_append_of_le_length bound, prefixes]
  | kept => rw [copyFromUser, store_take bound, prefixes]

theorem copyFromUser_zeroed : copyFromUser .zeroed dst 0 src lost =
    src.take (copied src.length lost) ++ List.replicate (notCopied src.length lost) 0 ++ dst.drop src.length := by
  have length : (src.take (copied src.length lost) ++ List.replicate (notCopied src.length lost) 0).length = src.length := by
    simp only [copied, notCopied, List.length_append, List.length_take, List.length_replicate]
    omega
  rw [copyFromUser, store, List.take_zero, List.nil_append, Nat.zero_add, length]

/-- In a buffer of zeros nothing is left of the choice. -/
theorem copyFromUser_zeros (fits : src.length ≤ n) : copyFromUser rest (List.replicate n 0) 0 src lost =
    src.take (copied src.length lost) ++ List.replicate (n - copied src.length lost) 0 := by
  have le : copied src.length lost ≤ src.length := copied_le
  cases rest with
  | zeroed =>
    have zeros : notCopied src.length lost + (n - src.length) = n - copied src.length lost := by
      unfold copied notCopied
      omega
    rw [copyFromUser_zeroed, List.drop_replicate, List.append_assoc, List.replicate_append_replicate, zeros]
  | kept =>
    rw [copyFromUser, store, List.take_zero, List.nil_append, List.drop_replicate, Nat.zero_add, List.length_take,
      Nat.min_eq_left le]

end

/-! Strings -/

section Strings

variable [Zero β] [DecidableEq β] {b : β} {s t : List β}

/-- The cells up to the first NUL. -/
def cstring (memory : List β) : List β := memory.takeWhile (· ≠ 0)

@[simp] theorem cstring_nul (t : List β) : cstring (0 :: t) = [] := List.takeWhile_cons_of_neg (by simp)

theorem cstring_cons (h : b ≠ 0) : cstring (b :: t) = b :: cstring t := List.takeWhile_cons_of_pos (by simpa using h)

/-- Nothing after a NUL belongs to the string. -/
theorem cstring_of_mem (h : 0 ∈ s) : cstring (s ++ t) = cstring s := by
  induction s with
  | nil => cases h
  | cons b s ih =>
    rw [List.cons_append]
    by_cases nul : b = 0
    · rw [nul, cstring_nul, cstring_nul]
    · rw [cstring_cons nul, cstring_cons nul, ih ((List.mem_cons.1 h).resolve_left (Ne.symm nul))]

theorem cstring_append_nul : cstring (s ++ 0 :: t) = cstring s := by
  induction s with
  | nil => exact cstring_nul t
  | cons b s ih =>
    rw [List.cons_append]
    by_cases nul : b = 0
    · rw [nul, cstring_nul, cstring_nul]
    · rw [cstring_cons nul, cstring_cons nul, ih]

theorem cstring_length_le (memory : List β) : (cstring memory).length ≤ memory.length :=
  (List.takeWhile_prefix _).length_le

theorem cstring_length_lt (h : 0 ∈ s) : (cstring s).length < s.length := by
  induction s with
  | nil => cases h
  | cons b s ih =>
    by_cases nul : b = 0
    · rw [nul, cstring_nul]
      exact Nat.succ_pos _
    · rw [cstring_cons nul]
      exact Nat.succ_lt_succ (ih ((List.mem_cons.1 h).resolve_left (Ne.symm nul)))

/-- Without a NUL the string goes on behind. -/
theorem cstring_append (h : 0 ∉ s) : cstring (s ++ t) = s ++ cstring t := by
  induction s with
  | nil => rfl
  | cons b s ih =>
    rw [List.mem_cons, not_or] at h
    rw [List.cons_append, cstring_cons (Ne.symm h.1), ih h.2, List.cons_append]

variable {src behind : List β} {n lost : Nat} {rest : Rest}

/-- What was copied to a buffer of zeros, as a string that ends inside it. -/
theorem cstring_copyFromUser (fits : src.length ≤ n)
    (ends : copied src.length lost < n ∨ 0 ∈ src.take (copied src.length lost)) :
    cstring (copyFromUser rest (List.replicate n 0) 0 src lost ++ behind) =
      cstring (src.take (copied src.length lost)) := by
  rw [copyFromUser_zeros fits, List.append_assoc]
  rcases ends with short | nul
  · obtain ⟨k, zeros⟩ : ∃ k, n - copied src.length lost = k + 1 := ⟨n - copied src.length lost - 1, by omega⟩
    rw [zeros, List.replicate_succ, List.cons_append]
    exact cstring_append_nul
  · exact cstring_of_mem nul

/-- As one that does not. -/
theorem cstring_copyFromUser_full (fits : src.length ≤ n)
    (full : ¬ (copied src.length lost < n ∨ 0 ∈ src.take (copied src.length lost))) :
    cstring (copyFromUser rest (List.replicate n 0) 0 src lost ++ behind) =
      src.take (copied src.length lost) ++ cstring behind := by
  rw [not_or] at full
  have all : n - copied src.length lost = 0 := by omega
  rw [copyFromUser_zeros fits, all, List.replicate_zero, List.append_nil]
  exact cstring_append full.2

end Strings

end Beaglebone.Machine
