import Beaglebone.I2c.Slave

/-!
# A register file on the bus

The devices of this repository are register files: the first byte after a START
that transmits selects a register, the next one is stored in it, and a START that
receives reads from the register selected. `RegisterFile` answers to one address
and ignores the STARTs for any other. Behind the driver it is an atomic memory:
every read that succeeds returns what the last successful write of the same
register stored, in an order of the calls that respects real time, and no write is
lost or done twice (`registers_atomic`).
-/

namespace Beaglebone.I2c

open Machine

structure RegisterFile where
  regs : U8 → U8
  /-- the last START was for this device -/
  addressed : Bool := false
  pointer : Option U8 := none

/-- The register file at the address `addr`. A device that is not addressed leaves
the lines high. -/
def registerFile (addr : U8) : Slave RegisterFile where
  start d sa tx := { d with
    addressed := sa = addr.setWidth 32
    pointer := if tx then none else d.pointer }
  put d b := match d.addressed, b, d.pointer with
    | true, some b, none => { d with pointer := some b }
    | true, some b, some r => { d with regs := upd d.regs r b, pointer := none }
    | _, _, _ => d
  get d := match d.addressed, d.pointer with
    | true, some r => (d.regs r, { d with pointer := some (r + 1) })
    | _, _ => (0xFF, d)

/-- What a call does to the registers. -/
def Call.store (addr : U8) (m : U8 → U8) : Call → U8 → U8
  | .write value regAddress slaveAddress => if slaveAddress = addr then upd m regAddress value else m
  | .read .. => m

/-- What it returns. -/
def Call.answer (addr : U8) (m : U8 → U8) : Call → Int
  | .write .. => 0
  | .read address slaveAddress => if slaveAddress = addr then (m address).toNat else 0xFF

/-- The atomic memory: a call stores and answers, or returns -1. -/
def Performs (addr : U8) (m : U8 → U8) (c : Call) (v : Int) (m' : U8 → U8) : Prop :=
  v = c.answer addr m ∧ m' = c.store addr m ∨ v = -1 ∧ m' = m

/-- The registers after these calls, of which those that returned -1 do not count. -/
def contents {P : Type*} (addr : U8) (m : U8 → U8) (ops : List (P × Call × Int)) : U8 → U8 :=
  ops.foldl (fun m op => if op.2.2 = -1 then m else op.2.1.store addr m) m

/-- Every read that succeeds returns what the calls before it have stored. -/
def ReadsBack {P : Type*} (addr : U8) (m : U8 → U8) (ops : List (P × Call × Int)) : Prop :=
  ∀ (before after : List (P × Call × Int)) (p : P) (a : U8) (v : Int),
    ops = before ++ (p, .read a addr, v) :: after → v ≠ -1 → v = (contents addr m before a).toNat

variable {addr : U8} {d d' : RegisterFile} {c : Call} {v : Int} {P : Type}

theorem setWidth_inj {a b : U8} : (a.setWidth 32 : U32) = b.setWidth 32 ↔ a = b := by
  constructor
  · intro same
    have := congrArg BitVec.toNat same
    simp only [BitVec.toNat_setWidth] at this
    exact BitVec.eq_of_toNat_eq (by omega)
  · rintro rfl
    rfl

theorem Call.answer_ne (m : U8 → U8) : c.answer addr m ≠ -1 := by
  cases c with
  | write => simp [Call.answer]
  | read =>
    simp only [Call.answer]
    split <;> omega

/-- The bytes on the wire do to the register file what the call says. -/
theorem registerFile_perform : ((registerFile addr).perform d c).1 = c.answer addr d.regs ∧
    ((registerFile addr).perform d c).2.regs = c.store addr d.regs := by
  cases c with
  | write value regAddress slaveAddress =>
    by_cases mine : slaveAddress = addr <;>
      simp [Slave.perform, Slave.written, registerFile, Call.bytes, Call.slaveAddress, Call.answer, Call.store,
        setWidth_inj, mine]
  | read address slaveAddress =>
    by_cases mine : slaveAddress = addr <;>
      simp [Slave.perform, Slave.asked, Slave.written, registerFile, Call.bytes, Call.slaveAddress, Call.answer,
        Call.store, setWidth_inj, mine]

/-- The device refines the memory. -/
theorem registerFile_refines (h : (registerFile addr).Performs d c v d') : Performs addr d.regs c v d'.regs := by
  rcases h with perform | ⟨rfl, rfl⟩
  · have spec := @registerFile_perform addr d c
    rw [perform] at spec
    exact .inl spec
  · exact .inr ⟨rfl, rfl⟩

/-- A legal order leaves in the registers what its successful writes stored. -/
theorem Legal.contents {m m' : U8 → U8} {ops : List (P × Call × Int)} (legal : Legal (Performs addr) m ops m') :
    m' = I2c.contents addr m ops := by
  induction legal with
  | nil => rfl
  | @snoc ops p c v m₁ m₂ _ performs ih =>
    rw [I2c.contents, List.foldl_append]
    show _ = if v = -1 then I2c.contents addr m ops else c.store addr (I2c.contents addr m ops)
    rw [← ih]
    rcases performs with ⟨rfl, rfl⟩ | ⟨rfl, rfl⟩
    · rw [if_neg (Call.answer_ne m₁)]
    · rw [if_pos rfl]

/-- What each call of a legal order returns. -/
theorem Legal.answers {m m' : U8 → U8} {before after : List (P × Call × Int)} {p : P}
    (legal : Legal (Performs addr) m (before ++ (p, c, v) :: after) m') :
    v = c.answer addr (I2c.contents addr m before) ∨ v = -1 := by
  obtain ⟨m₁, m₂, legal, performs⟩ := legal.at
  rw [← Legal.contents legal]
  rcases performs with ⟨value, -⟩ | ⟨failed, -⟩
  · exact .inl value
  · exact .inr failed

/-- Its reads return what they stored. -/
theorem Legal.readsBack {m m' : U8 → U8} {ops : List (P × Call × Int)} (legal : Legal (Performs addr) m ops m') :
    ReadsBack addr m ops := by
  intro before after p a v order ok
  rw [order] at legal
  rcases Legal.answers legal with value | failed
  · simpa [Call.answer] using value
  · exact absurd failed ok

section Runs

variable [DecidableEq P]

/-- The order of the calls, and the registers after them. -/
theorem History.contents {d₀ : RegisterFile} {h : List (Event P Call Int)}
    {g : Global P Proc (Shared × RegisterFile) Ret} (run : History (registerFile addr) d₀ h g) :
    ∃ ops, Linearization (Performs addr) d₀.regs h ops (I2c.contents addr d₀.regs ops) ∧
      (g.lock = none → g.shared.2.regs = I2c.contents addr d₀.regs ops) := by
  obtain ⟨t, atomic, free⟩ := run.atomic
  have lin := atomic.linearization
  have legal : Legal (Performs addr) d₀.regs t.order t.obj.regs := lin.legal.map fun _ _ _ _ => registerFile_refines
  have now := Legal.contents legal
  exact ⟨t.order, ⟨now ▸ legal, lin.agrees, lin.prompt⟩,
    fun unlocked => (congrArg RegisterFile.regs (free unlocked)).trans now⟩

/-- **The registers are atomic.** In every run of any number of processes with a
register file on the bus, the calls take effect in one order that respects real
time: a read that succeeds returns what the successful writes before it stored,
and when `lock_bus` is free the registers hold what all of them stored. -/
theorem registers_atomic {d₀ : RegisterFile} {h : List (Event P Call Int)}
    {g : Global P Proc (Shared × RegisterFile) Ret} (run : History (registerFile addr) d₀ h g) :
    ∃ ops, Linearization (Performs addr) d₀.regs h ops (contents addr d₀.regs ops) ∧
      ReadsBack addr d₀.regs ops ∧
      (g.lock = none → g.shared.2.regs = contents addr d₀.regs ops) := by
  obtain ⟨ops, lin, free⟩ := run.contents
  exact ⟨ops, lin, Legal.readsBack lin.legal, free⟩

end Runs

/-- A write of `0x27` to the register `0xF4`, interrupted by a signal, and a read of
that register by another process. -/
def writeThenRead : List (Action Bool) :=
  .proc false (.call (.write 0x27 0xF4 0x76)) :: goes false 11 ++ [.env (.xrdy 1)] ++ handler 8 ++
  [.proc false .signal] ++ [.env (.xrdy 1)] ++ handler 8 ++ [.env (.ardy 1)] ++ handler 6 ++ goes false 4 ++
  readUnlocked true 0xF4 0x27 2 ++ goes true 1

theorem writeThenRead_atomic : ∃ g : Global Bool Proc (Shared × RegisterFile) Ret,
    g.shared.2.regs 0xF4 = 0x27 ∧ ∃ ops, Linearization (Performs 0x76) (fun _ => 0)
      [.call false (.write 0x27 0xF4 0x76), .ret false 0, .call true (.read 0xF4 0x76), .ret true 0x27] ops
        (contents 0x76 (fun _ => 0) ops) ∧
      ReadsBack 0x76 (fun _ => 0) ops ∧
      (g.lock = none → g.shared.2.regs = contents 0x76 (fun _ => 0) ops) := by
  obtain ⟨g, run, stored⟩ := exists_trace (onBus (registerFile 0x76)).step
    ((onBus (registerFile 0x76)).ok (civilOn (registerFile 0x76)))
    ((onBus (registerFile 0x76)).events Input.invocation Ret.value) (fun g => g.shared.2.regs 0xF4 = 0x27)
    (initialOn Bool { regs := fun _ => 0 }) writeThenRead (by decide +kernel)
  have shown : shows (onBus (registerFile 0x76)).step ((onBus (registerFile 0x76)).events Input.invocation Ret.value)
      (initialOn Bool { regs := fun _ => 0 }) writeThenRead = [.call false (.write 0x27 0xF4 0x76), .ret false 0,
        .call true (.read 0xF4 0x76), .ret true 0x27] := by decide +kernel
  have atomic := registers_atomic run
  rw [shown] at atomic
  exact ⟨g, stored, atomic⟩

end Beaglebone.I2c
