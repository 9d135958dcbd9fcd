import Beaglebone.Machine.UserCopy
import Beaglebone.Machine.Word
import Mathlib.Data.BitVec

/-!
# `kernel/002_char_device`: an echo

`driver_write` stores the bytes of the user in `buffer`, `driver_read` returns them. A
write whose copy stops early accepts fewer bytes than it was given, but `buffer_pointer`
counts what was to be copied. A read returns what the last write accepted exactly if
all of it could be copied or the read does not ask for more (`echo_iff`).
-/

namespace Beaglebone.Kernel.CharDevice

open Machine

/-- `sizeof(buffer)` -/
def bufferSize : Nat := 255

structure State where
  buffer : List U8 := List.replicate bufferSize 0
  bufferPointer : Nat := 0

/-- `driver_read` of `count` bytes, the last `lost` of which cannot be copied: its value
and the bytes that reach the user. -/
def driverRead (g : State) (count lost : Nat) : Nat × List U8 :=
  let toCopy := min count g.bufferPointer
  (copied toCopy lost, copyToUser (g.buffer.take toCopy) lost)

/-- `driver_write` of the bytes `data`, the last `lost` of which cannot be copied: its
value and the state it leaves. -/
def driverWrite (g : State) (data : List U8) (lost : Nat) (rest : Rest) : Nat × State :=
  let toCopy := min data.length bufferSize
  (copied toCopy lost,
    { buffer := copyFromUser rest g.buffer 0 (data.take toCopy) lost, bufferPointer := toCopy })

inductive Op where
  | read (count lost : Nat)
  | write (data : List U8) (lost : Nat) (rest : Rest)

/-- The device with its history: the data of the last write, how many bytes of it could
not be copied, and the value the write returned. -/
structure History where
  state : State := {}
  data : List U8 := []
  lost : Nat := 0
  n : Nat := 0

def History.step (h : History) : Op → History
  | .read _ _ => h
  | .write data lost rest =>
    let (n, state) := driverWrite h.state data lost rest
    { state, data, lost, n }

/-- The history after some calls. -/
def run (ops : List Op) : History := ops.foldl History.step {}

/-- A read of `count` bytes returns the bytes that the last write accepted, as many as
asked for. -/
def Echoes (h : History) (count : Nat) : Prop :=
  driverRead h.state count 0 = (min count h.n, h.data.take (min count h.n))

/-- The last write had nothing that could not be copied. -/
def History.Complete (h : History) : Prop := h.lost = 0 ∨ h.data = []

/-- The invariant. -/
structure Stored (h : History) : Prop where
  size : h.state.buffer.length = bufferSize
  pointer : h.state.bufferPointer = min h.data.length bufferSize
  count : h.n = min h.data.length bufferSize - h.lost
  bytes : h.state.buffer.take h.n = h.data.take h.n

section

variable {h : History}

theorem Stored.step (s : Stored h) (op : Op) : Stored (h.step op) := by
  cases op with
  | read => exact s
  | write data lost rest =>
    have tried := length_take_min data bufferSize
    have fits : 0 + (data.take (min data.length bufferSize)).length ≤ h.state.buffer.length := by
      rw [s.size, tried]
      omega
    have accepted : copied (min data.length bufferSize) lost = min data.length bufferSize - lost := by
      unfold copied notCopied
      omega
    refine ⟨(length_copyFromUser fits).trans s.size, rfl, accepted, ?_⟩
    show (copyFromUser rest h.state.buffer 0 _ lost).take (copied _ lost) = _
    rw [copyFromUser_take (by rw [tried]), List.take_take, Nat.min_eq_left copied_le]
    rfl

theorem Stored.run (s : Stored h) (ops : List Op) : Stored (ops.foldl History.step h) := by
  induction ops generalizing h with
  | nil => exact s
  | cons op ops ih => exact ih (s.step op)

theorem stored (ops : List Op) : Stored (run ops) := by
  have initial : Stored {} := ⟨List.length_replicate, by decide, by decide, rfl⟩
  exact initial.run ops

theorem Stored.read_eq (s : Stored h) {count : Nat} (le : count ≤ h.n) :
    driverRead h.state count 0 = (count, h.data.take count) := by
  have pointer := s.pointer
  have accepted := s.count
  have toCopy : min count h.state.bufferPointer = count := Nat.min_eq_left (by omega)
  have bytes : h.state.buffer.take count = h.data.take count := by
    have shorter := congrArg (List.take count) s.bytes
    rwa [List.take_take, List.take_take, Nat.min_eq_left le] at shorter
  simp only [driverRead, toCopy, copyToUser, copied_zero, bytes, List.take_length]

/-- The pointer is what was accepted exactly after a complete write. -/
theorem Stored.complete_iff (s : Stored h) : h.Complete ↔ h.n = h.state.bufferPointer := by
  rw [History.Complete, ← List.length_eq_zero_iff, s.pointer, s.count, bufferSize]
  omega

theorem Stored.echoes_iff (s : Stored h) (count : Nat) : Echoes h count ↔ h.Complete ∨ count ≤ h.n := by
  have pointer := s.pointer
  have accepted := s.count
  rw [s.complete_iff]
  unfold Echoes
  constructor
  · intro echo
    have value : min count h.state.bufferPointer = min count h.n := congrArg Prod.fst echo
    omega
  · intro ok
    by_cases le : count ≤ h.n
    · rw [s.read_eq le, Nat.min_eq_left le]
    · -- the whole buffer is asked for, and was accepted
      have all : h.state.bufferPointer = h.n := by omega
      have less : min count h.n = h.n := by omega
      have same : driverRead h.state count 0 = driverRead h.state h.n 0 := by
        simp only [driverRead, all, less, Nat.min_self]
      rw [same, s.read_eq (Nat.le_refl _), less]

end

/-- **The echo law**: after any calls, a read returns what the last write accepted
exactly if all of that write could be copied, or no more bytes are asked for than could. -/
theorem echo_iff (ops : List Op) (count : Nat) : Echoes (run ops) count ↔
    (run ops).Complete ∨ count ≤ min (run ops).data.length bufferSize - (run ops).lost := by
  rw [← (stored ops).count]
  exact (stored ops).echoes_iff count

/-- Three bytes are written, of which one arrives. -/
def faulting : List Op := [.write [0x61, 0x62, 0x63] 2 .zeroed]

theorem faulting_not_echoed : ¬ ∀ ops count, Echoes (run ops) count := by
  intro all
  have echo := congrArg Prod.fst (all faulting 3)
  exact absurd echo (by decide)

end Beaglebone.Kernel.CharDevice
