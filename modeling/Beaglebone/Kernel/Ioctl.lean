import Beaglebone.Machine.Run
import Beaglebone.Machine.UserCopy
import Beaglebone.Machine.Word
import Mathlib.Data.BitVec

/-!
# `kernel/010_ioctl`: a multiplier

`IOCTL_CMD_MULTIPLY` copies its operand into a local variable, `IOCTL_CMD_WRITE` copies
it straight into `multiplier`. A copy that stops early therefore makes the second one
return -1 with part of the new value in place: the device keeps its promises along a run
exactly if that never happens, or happens to leave the old value (`atomic_iff`).
-/

namespace Beaglebone.Kernel.Ioctl

open Machine

/-- `_IOC(dir, type, nr, size)` -/
def ioc (dir type nr size : U32) : U32 := dir <<< 30 ||| size <<< 16 ||| type <<< 8 ||| nr

/-- `MAGIC_NUMBER` is `'c'`, and an argument is a pointer of four bytes. -/
def ioctlCmdMultiply : U32 := ioc 3 0x63 1 4
def ioctlCmdReset : U32 := ioc 0 0x63 2 0
def ioctlCmdRead : U32 := ioc 2 0x63 3 4
def ioctlCmdWrite : U32 := ioc 1 0x63 4 4

/-- The bytes of an `int`, least significant first. -/
def bytes (v : S32) : List U8 :=
  [v.setWidth 8, (v >>> 8).setWidth 8, (v >>> 16).setWidth 8, (v >>> 24).setWidth 8]

/-- The number that bytes stand for. -/
def byteValue : List U8 → Nat
  | [] => 0
  | b :: bs => b.toNat + 256 * byteValue bs

/-- An `int` variable with the value `old` after `copy_from_user` of the `int` `arg`. -/
def fetch (old arg : S32) (lost : Nat) : S32 :=
  BitVec.ofNat 32 (byteValue (copyFromUser .zeroed (bytes old) 0 (bytes arg) lost))

/-- A call of `driver_ioctl`: the command, the `int` that `arg` points to, and how many
of its bytes cannot be copied from and to the user. -/
structure Request where
  cmd : U32
  arg : S32
  lostFrom : Nat := 0
  lostTo : Nat := 0

/-- The value of a call, `multiplier` after it, and the bytes stored at `arg`. -/
structure Reply where
  value : Int
  multiplier : S32
  stored : List U8 := []

/-- The commands that copy an `int` to the user. -/
def reply (multiplier answer : S32) (lost : Nat) : Reply where
  value := if notCopied 4 lost ≠ 0 then -1 else 0
  multiplier := multiplier
  stored := copyToUser (bytes answer) lost

def driverIoctl (multiplier : S32) (r : Request) : Reply :=
  if r.cmd = ioctlCmdReset then { value := 0, multiplier := 1 }
  else if r.cmd = ioctlCmdMultiply then
    let answer := fetch 0 r.arg r.lostFrom
    if notCopied 4 r.lostFrom ≠ 0 then { value := -1, multiplier }
    else reply multiplier (answer * multiplier) r.lostTo
  else if r.cmd = ioctlCmdRead then reply multiplier multiplier r.lostTo
  else if r.cmd = ioctlCmdWrite then
    let multiplier := fetch multiplier r.arg r.lostFrom
    if notCopied 4 r.lostFrom ≠ 0 then { value := -1, multiplier } else { value := 0, multiplier }
  else { value := 0, multiplier }

/-- The device with its history: the operand of the last `IOCTL_CMD_WRITE` that returned 0
since the last `IOCTL_CMD_RESET`, or 1. -/
structure State where
  multiplier : S32 := 1
  written : S32 := 1

def State.next (s : State) (r : Request) : State where
  multiplier := (driverIoctl s.multiplier r).multiplier
  written :=
    if r.cmd = ioctlCmdReset then 1
    else if r.cmd = ioctlCmdWrite ∧ (driverIoctl s.multiplier r).value = 0 then r.arg
    else s.written

def step (s : State) (r : Request) : Option State := some (s.next r)

/-- What a call promises. -/
structure Atomic (s : State) (r : Request) (s' : State) : Prop where
  failed : (driverIoctl s.multiplier r).value = -1 → s'.multiplier = s.multiplier
  written : s'.multiplier = s'.written
  product : r.cmd = ioctlCmdMultiply → (driverIoctl s.multiplier r).value = 0 →
    (driverIoctl s.multiplier r).stored = bytes (r.arg * s.written)

/-- A write copies all of its operand, or the bytes that it does copy, with zeros above
them, are the multiplier already. -/
def Whole (s : State) (r : Request) : Prop :=
  r.cmd = ioctlCmdWrite → r.lostFrom = 0 ∨ r.arg.toNat % 2 ^ (8 * (4 - r.lostFrom)) = s.multiplier.toNat

section

variable {s : State} {r : Request} {v arg old multiplier : S32} {lost : Nat}

@[simp] theorem bytes_length (v : S32) : (bytes v).length = 4 := rfl

/-- The first bytes of a word, and zeros. -/
theorem byteValue_prefix (v : S32) (k : Nat) :
    byteValue ((bytes v).take k ++ List.replicate (4 - k) 0) = v.toNat % 2 ^ (8 * min k 4) := by
  have bound := v.isLt
  match k with
  | 0 | 1 | 2 | 3 | k + 4 => simp [bytes, byteValue, Nat.shiftRight_eq_div_pow] <;> omega

/-- What `copy_from_user` leaves in an `int`. -/
theorem fetch_toNat (old arg : S32) (lost : Nat) : (fetch old arg lost).toNat = arg.toNat % 2 ^ (8 * (4 - lost)) := by
  have covers : copyFromUser .zeroed (bytes old) 0 (bytes arg) lost =
      (bytes arg).take (copied 4 lost) ++ List.replicate (4 - copied 4 lost) 0 := by
    have lostOnes : notCopied 4 lost = 4 - copied 4 lost := by
      unfold copied notCopied
      omega
    rw [copyFromUser_zeroed, bytes_length, lostOnes, List.drop_eq_nil_of_le (by simp), List.append_nil]
  have least : min (copied 4 lost) 4 = 4 - lost := by
    unfold copied notCopied
    omega
  have bound : arg.toNat % 2 ^ (8 * (4 - lost)) < 2 ^ 32 := Nat.lt_of_le_of_lt (Nat.mod_le ..) arg.isLt
  rw [fetch, covers, BitVec.toNat_ofNat, byteValue_prefix, least, Nat.mod_eq_of_lt bound]

theorem fetch_zero : fetch old arg 0 = arg := by
  apply BitVec.eq_of_toNat_eq
  rw [fetch_toNat]
  exact Nat.mod_eq_of_lt arg.isLt

theorem notCopied_eq_zero : notCopied 4 lost = 0 ↔ lost = 0 := by
  unfold notCopied
  omega

/-! What each command does -/

theorem ioctl_reset (multiplier : S32) (cmd : r.cmd = ioctlCmdReset) : driverIoctl multiplier r = { value := 0, multiplier := 1 } :=
  if_pos cmd

theorem ioctl_multiply (cmd : r.cmd = ioctlCmdMultiply) : driverIoctl multiplier r =
    if r.lostFrom ≠ 0 then { value := -1, multiplier } else reply multiplier (r.arg * multiplier) r.lostTo := by
  unfold driverIoctl
  rw [if_neg (by rw [cmd]; decide), if_pos cmd]
  simp only [ne_eq, notCopied_eq_zero]
  split
  · rfl
  · next none => rw [not_not.1 none, fetch_zero]

theorem ioctl_write (multiplier : S32) (cmd : r.cmd = ioctlCmdWrite) : driverIoctl multiplier r =
    { value := if r.lostFrom ≠ 0 then -1 else 0, multiplier := fetch multiplier r.arg r.lostFrom } := by
  unfold driverIoctl
  rw [if_neg (by rw [cmd]; decide), if_neg (by rw [cmd]; decide), if_neg (by rw [cmd]; decide), if_pos cmd]
  simp only [ne_eq, notCopied_eq_zero]
  split <;> rfl

/-- Only a reset and a write change the multiplier. -/
theorem multiplier_eq (multiplier : S32) (reset : r.cmd ≠ ioctlCmdReset) (write : r.cmd ≠ ioctlCmdWrite) :
    (driverIoctl multiplier r).multiplier = multiplier := by
  unfold driverIoctl
  rw [if_neg reset]
  split
  · dsimp only
    split <;> rfl
  split <;> rfl

/-- A product that is stored is the operand times the multiplier. -/
theorem stored_eq (cmd : r.cmd = ioctlCmdMultiply) (success : (driverIoctl multiplier r).value = 0) :
    (driverIoctl multiplier r).stored = bytes (r.arg * multiplier) := by
  rw [ioctl_multiply cmd] at success ⊢
  split at success
  · cases success
  next none =>
  rw [if_neg none]
  have all : r.lostTo = 0 := by
    by_contra some
    rw [← notCopied_eq_zero] at some
    simp [reply, some] at success
  rw [all, reply, copyToUser, bytes_length, copied_zero]
  rfl

/-- An interrupted write leaves the multiplier alone exactly if it puts the same word
there. -/
theorem fetch_eq_iff : fetch old arg lost = multiplier ↔ arg.toNat % 2 ^ (8 * (4 - lost)) = multiplier.toNat := by
  rw [← BitVec.toNat_inj, fetch_toNat]

theorem atomic_write (cmd : r.cmd = ioctlCmdWrite) (h : s.multiplier = s.written) :
    Atomic s r (s.next r) ↔ r.lostFrom = 0 ∨ fetch s.multiplier r.arg r.lostFrom = s.multiplier := by
  have multiply : r.cmd ≠ ioctlCmdMultiply := by rw [cmd]; decide
  have reset : r.cmd ≠ ioctlCmdReset := by rw [cmd]; decide
  have called := ioctl_write s.multiplier cmd
  have after : (s.next r).multiplier = fetch s.multiplier r.arg r.lostFrom := by rw [State.next, called]
  have written : (s.next r).written = if r.lostFrom = 0 then r.arg else s.written := by
    rw [State.next, if_neg reset, called]
    by_cases none : r.lostFrom = 0 <;> simp [cmd, none]
  constructor
  · intro atomic
    by_cases none : r.lostFrom = 0
    · exact .inl none
    · right
      rw [← after]
      exact atomic.failed (by rw [called]; exact if_pos none)
  · intro whole
    by_cases none : r.lostFrom = 0
    · refine ⟨fun failed => ?_, ?_, fun cmd => absurd cmd multiply⟩
      · rw [called] at failed
        simp [none] at failed
      · rw [after, written, if_pos none, none, fetch_zero]
    · have same := whole.resolve_left none
      refine ⟨fun _ => after.trans same, ?_, fun cmd => absurd cmd multiply⟩
      rw [after, written, if_neg none, same, h]

theorem atomic_step (h : s.multiplier = s.written) : Atomic s r (s.next r) ↔ Whole s r := by
  by_cases write : r.cmd = ioctlCmdWrite
  · rw [atomic_write write h, fetch_eq_iff]
    exact ⟨fun whole _ => whole, fun whole => whole write⟩
  refine iff_of_true ?_ fun cmd => absurd cmd write
  by_cases reset : r.cmd = ioctlCmdReset
  · have called := ioctl_reset s.multiplier reset
    refine ⟨fun failed => ?_, ?_, fun cmd => ?_⟩
    · rw [called] at failed
      cases failed
    · simp [State.next, called, reset]
    · rw [reset] at cmd
      exact absurd cmd (by decide)
  · have kept := multiplier_eq s.multiplier reset write
    refine ⟨fun _ => kept, ?_, fun cmd success => ?_⟩
    · rw [State.next, if_neg reset, if_neg fun both => write both.1]
      exact kept.trans h
    · rw [← h]
      exact stored_eq cmd success

end

/-- **Atomicity.** In every run a call that returns -1 leaves the multiplier alone, the
multiplier is what was last written, and products are stored back, exactly if every
write of the run is whole. -/
theorem atomic_iff (rs : List Request) :
    Throughout step Atomic {} rs ↔ Throughout step (fun s r _ => Whole s r) {} rs := by
  have exact : ∀ s r s', s.multiplier = s.written → step s r = some s' → (Atomic s r s' ↔ Whole s r) := by
    intro s r s' h hs
    obtain rfl := Option.some.inj hs
    exact atomic_step h
  exact throughout_iff exact (fun _ _ _ _ _ atomic => atomic.written) rfl rs

/-- A write of 0x01020304 of which the two low bytes arrive. -/
def halfWrite : Request := { cmd := ioctlCmdWrite, arg := 0x01020304, lostFrom := 2 }

theorem halfWrite_not_atomic : ¬ ∀ rs, Throughout step Atomic {} rs := by
  intro all
  have same := (all [halfWrite] _ rfl).1.failed (by decide)
  exact absurd same (by decide)

end Beaglebone.Kernel.Ioctl
