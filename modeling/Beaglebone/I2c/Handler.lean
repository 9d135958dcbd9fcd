import Beaglebone.I2c.Call

/-!
# `prv_isr` and the controller

The controller raises the interrupts that a START owes at any later step, each
at most once: an XRDY for each byte of CNT, one RRDY with the byte received, one
ARDY. Raising sets a bit of IRQSTATUS; a bit that is already set is not counted.
`prv_isr` runs statement by statement (`Shared.isr`), so that processes and the
controller may move between two of its statements. NACK and AL only reach the
kernel log.
-/

namespace Beaglebone.I2c

open Machine

/-- A step of the environment: the bus, the controller for the START `t`, the
entry of the handler, or the next statement of the handler. -/
inductive Env where
  | bus (busy : Bool)
  | xrdy (t : Nat)
  | rrdy (t : Nat) (byte : U8)
  | ardy (t : Nat)
  | nack
  | al
  | enter
  | isr
  deriving DecidableEq, Repr

/-- `t` is a START issued so far. -/
def Shared.issued (s : Shared) (t : Nat) : Prop := 1 ≤ t ∧ t ≤ s.nstart

instance (s : Shared) (t : Nat) : Decidable (s.issued t) := inferInstanceAs (Decidable (_ ∧ _))

/-- `g_write[g_len]`, if the index is inside the array. -/
def Shared.writeByte (s : Shared) : Option U8 := [s.gWrite0, s.gWrite1][s.gLen.toNat]?

/-- `prv_write(g_write[g_len])`: the latest START is the one in progress. -/
def Shared.push (s : Shared) : Shared :=
  { s with
    starts := upd s.starts s.nstart
      { s.starts s.nstart with sent := (s.starts s.nstart).sent + 1 }
    pushed := s.pushed ++ [(s.nstart, s.writeByte)] }

/-- The next statement of `prv_isr`. -/
def Shared.prvIsr (s : Shared) : Option Shared :=
  match s.isr with
  | .off => none
  | .test => if isSet s.status irqEnabled then some { s with isr := .ardy s.status }
             else some { s with isr := .off }
  | .ardy irq =>
    if isSet irq i2cIrqArdy then
      some { s with isr := .rrdyLen irq, compStop := s.compStop ++ [s.ardyBy] }
    else some { s with isr := .rrdyLen irq }
  | .rrdyLen irq =>
    if isSet irq i2cIrqRrdy then some { s with isr := .rrdyData irq, gLen := s.gLen - 1 }
    else some { s with isr := .xrdyLen irq }
  | .rrdyData irq => some { s with isr := .rrdyDone irq, gRead := s.data, readBy := s.dataBy }
  | .rrdyDone irq => some { s with isr := .xrdyLen irq, compRead := s.compRead ++ [s.readBy] }
  | .xrdyLen irq =>
    if isSet irq i2cIrqXrdy then some { s with isr := .xrdyData irq, gLen := s.gLen - 1 }
    else some { s with isr := .ack irq }
  | .xrdyData irq => some { s.push with isr := .xrdyWake irq }
  | .xrdyWake irq => some { s with isr := .ack irq }
  | .ack irq => some { s with isr := .test, status := s.status &&& ~~~irq }

/-- A step of the environment. -/
def Shared.env (s : Shared) : Env → Option Shared
  | .bus busy => some { s with status := if busy then s.status ||| i2cIrqBb
                                         else s.status &&& ~~~i2cIrqBb }
  | .xrdy t =>
    if s.issued t ∧ (s.starts t).tx ∧ (s.starts t).xrdy < (s.starts t).cnt.toNat then
      some { s with
        status := s.status ||| i2cIrqXrdy
        starts := upd s.starts t { s.starts t with xrdy := (s.starts t).xrdy + 1 } }
    else none
  | .rrdy t b =>
    if s.issued t ∧ ¬ (s.starts t).tx ∧ (s.starts t).rx = none then
      some { s with
        status := s.status ||| i2cIrqRrdy
        starts := upd s.starts t { s.starts t with rx := some b }
        data := b
        dataBy := t }
    else none
  | .ardy t =>
    if s.issued t ∧ ¬ (s.starts t).ardy then
      some { s with
        status := s.status ||| i2cIrqArdy
        starts := upd s.starts t { s.starts t with ardy := true }
        ardyBy := t }
    else none
  | .nack => some { s with status := s.status ||| i2cIrqNack }
  | .al => some { s with status := s.status ||| i2cIrqAl }
  | .enter => match s.isr with
    | .off => some { s with isr := .test }
    | _ => none
  | .isr => s.prvIsr

/-! What the handler still owes: the branches of the ARDY, RRDY and XRDY bits -/

def Isr.ardyStage : Isr → Stage 16
  | .off | .test => .idle
  | .ardy irq => .ahead irq
  | .rrdyLen irq | .rrdyData irq | .rrdyDone irq | .xrdyLen irq | .xrdyData irq | .xrdyWake irq
  | .ack irq => .past irq

def Isr.rrdyStage : Isr → Stage 16
  | .off | .test => .idle
  | .ardy irq | .rrdyLen irq | .rrdyData irq => .ahead irq
  | .rrdyDone irq | .xrdyLen irq | .xrdyData irq | .xrdyWake irq | .ack irq => .past irq

def Isr.xrdyStage : Isr → Stage 16
  | .off | .test => .idle
  | .ardy irq | .rrdyLen irq | .rrdyData irq | .rrdyDone irq | .xrdyLen irq => .ahead irq
  | .xrdyData irq | .xrdyWake irq | .ack irq => .past irq

/-- `complete(&comp_stop)` is still to run for a raised ARDY. -/
def Shared.ardyDue (s : Shared) : Bool := s.isr.ardyStage.due s.status i2cIrqArdy

/-- `g_read = prv_read()` is still to run for a raised RRDY. -/
def Shared.rrdyDue (s : Shared) : Bool := s.isr.rrdyStage.due s.status i2cIrqRrdy

/-- `g_len--` is still to run for a raised XRDY. -/
def Shared.xrdyDue (s : Shared) : Bool := s.isr.xrdyStage.due s.status i2cIrqXrdy

/-- The handler is between `g_read = prv_read()` and `complete(&comp_read)`. -/
def Isr.readTaken : Isr → Bool
  | .rrdyDone _ => true
  | _ => false

/-- The handler is between `g_len--` and `prv_write(…)`. -/
def Isr.writeTaken : Isr → Bool
  | .xrdyData _ => true
  | _ => false

/-- The handler is inside a branch only for a bit that it latched. -/
def Isr.Latched : Isr → Prop
  | .rrdyData irq | .rrdyDone irq => isSet irq i2cIrqRrdy = true
  | .xrdyData irq | .xrdyWake irq => isSet irq i2cIrqXrdy = true
  | _ => True

theorem singleBit_ardy : SingleBit i2cIrqArdy := ⟨2, by decide, rfl⟩
theorem singleBit_rrdy : SingleBit i2cIrqRrdy := ⟨3, by decide, rfl⟩
theorem singleBit_xrdy : SingleBit i2cIrqXrdy := ⟨4, by decide, rfl⟩

/-- Updating the record of one START changes only the fields that differ. -/
theorem upd_field {β : Type} (g : Start → β) {f : Nat → Start} {t : Nat} {r : Start}
    (h : g r = g (f t)) (u : Nat) : g (upd f t r u) = g (f u) := by
  by_cases hu : u = t
  · subst hu; rw [upd_same, h]
  · rw [upd_other _ _ hu]

/-- What one step of the environment does. -/
inductive EnvStep (s : Shared) : Env → Shared → Prop where
  | bus (busy : Bool) : EnvStep s (.bus busy)
      { s with status := if busy then s.status ||| i2cIrqBb else s.status &&& ~~~i2cIrqBb }
  | xrdy (t : Nat) (issued : s.issued t) (tx : (s.starts t).tx = true)
      (left : (s.starts t).xrdy < (s.starts t).cnt.toNat) :
      EnvStep s (.xrdy t) { s with
        status := s.status ||| i2cIrqXrdy
        starts := upd s.starts t { s.starts t with xrdy := (s.starts t).xrdy + 1 } }
  | rrdy (t : Nat) (b : U8) (issued : s.issued t) (rx : (s.starts t).tx = false)
      (fresh : (s.starts t).rx = none) :
      EnvStep s (.rrdy t b) { s with
        status := s.status ||| i2cIrqRrdy
        starts := upd s.starts t { s.starts t with rx := some b }
        data := b
        dataBy := t }
  | ardy (t : Nat) (issued : s.issued t) (fresh : (s.starts t).ardy = false) :
      EnvStep s (.ardy t) { s with
        status := s.status ||| i2cIrqArdy
        starts := upd s.starts t { s.starts t with ardy := true }
        ardyBy := t }
  | nack : EnvStep s .nack { s with status := s.status ||| i2cIrqNack }
  | al : EnvStep s .al { s with status := s.status ||| i2cIrqAl }
  | enter (isr : s.isr = .off) : EnvStep s .enter { s with isr := .test }
  | latch (isr : s.isr = .test) (any : isSet s.status irqEnabled = true) :
      EnvStep s .isr { s with isr := .ardy s.status }
  | finish (isr : s.isr = .test) (any : isSet s.status irqEnabled = false) :
      EnvStep s .isr { s with isr := .off }
  | stop (irq : U16) (isr : s.isr = .ardy irq) (bit : isSet irq i2cIrqArdy = true) :
      EnvStep s .isr { s with isr := .rrdyLen irq, compStop := s.compStop ++ [s.ardyBy] }
  | skipStop (irq : U16) (isr : s.isr = .ardy irq) (bit : isSet irq i2cIrqArdy = false) :
      EnvStep s .isr { s with isr := .rrdyLen irq }
  | readLen (irq : U16) (isr : s.isr = .rrdyLen irq) (bit : isSet irq i2cIrqRrdy = true) :
      EnvStep s .isr { s with isr := .rrdyData irq, gLen := s.gLen - 1 }
  | skipRead (irq : U16) (isr : s.isr = .rrdyLen irq) (bit : isSet irq i2cIrqRrdy = false) :
      EnvStep s .isr { s with isr := .xrdyLen irq }
  | readData (irq : U16) (isr : s.isr = .rrdyData irq) :
      EnvStep s .isr { s with isr := .rrdyDone irq, gRead := s.data, readBy := s.dataBy }
  | readDone (irq : U16) (isr : s.isr = .rrdyDone irq) :
      EnvStep s .isr { s with isr := .xrdyLen irq, compRead := s.compRead ++ [s.readBy] }
  | writeLen (irq : U16) (isr : s.isr = .xrdyLen irq) (bit : isSet irq i2cIrqXrdy = true) :
      EnvStep s .isr { s with isr := .xrdyData irq, gLen := s.gLen - 1 }
  | skipWrite (irq : U16) (isr : s.isr = .xrdyLen irq) (bit : isSet irq i2cIrqXrdy = false) :
      EnvStep s .isr { s with isr := .ack irq }
  | writeData (irq : U16) (isr : s.isr = .xrdyData irq) :
      EnvStep s .isr { s.push with isr := .xrdyWake irq }
  | wake (irq : U16) (isr : s.isr = .xrdyWake irq) : EnvStep s .isr { s with isr := .ack irq }
  | ack (irq : U16) (isr : s.isr = .ack irq) :
      EnvStep s .isr { s with isr := .test, status := s.status &&& ~~~irq }

theorem prvIsr_step {s s' : Shared} (h : s.prvIsr = some s') : EnvStep s .isr s' := by
  unfold Shared.prvIsr at h
  split at h
  case h_1 => cases h
  case h_2 isr =>
    split at h <;> cases h
    · exact .latch isr ‹_›
    · exact .finish isr (Bool.eq_false_iff.2 ‹_›)
  case h_3 irq isr =>
    split at h <;> cases h
    · exact .stop irq isr ‹_›
    · exact .skipStop irq isr (Bool.eq_false_iff.2 ‹_›)
  case h_4 irq isr =>
    split at h <;> cases h
    · exact .readLen irq isr ‹_›
    · exact .skipRead irq isr (Bool.eq_false_iff.2 ‹_›)
  case h_5 irq isr => cases h; exact .readData irq isr
  case h_6 irq isr => cases h; exact .readDone irq isr
  case h_7 irq isr =>
    split at h <;> cases h
    · exact .writeLen irq isr ‹_›
    · exact .skipWrite irq isr (Bool.eq_false_iff.2 ‹_›)
  case h_8 irq isr => cases h; exact .writeData irq isr
  case h_9 irq isr => cases h; exact .wake irq isr
  case h_10 irq isr => cases h; exact .ack irq isr

/-- **Inversion**: a step of the environment is one of `EnvStep`. -/
theorem env_step {s s' : Shared} {e : Env} (h : s.env e = some s') : EnvStep s e s' := by
  cases e with
  | bus busy => cases h; exact .bus busy
  | xrdy t =>
    simp only [Shared.env] at h
    split at h
    · next g => cases h; exact .xrdy t g.1 g.2.1 g.2.2
    · cases h
  | rrdy t b =>
    simp only [Shared.env] at h
    split at h
    · next g => cases h; exact .rrdy t b g.1 (by simpa using g.2.1) g.2.2
    · cases h
  | ardy t =>
    simp only [Shared.env] at h
    split at h
    · next g => cases h; exact .ardy t g.1 (by simpa using g.2)
    · cases h
  | nack => cases h; exact .nack
  | al => cases h; exact .al
  | enter =>
    simp only [Shared.env] at h
    split at h
    · next isr => cases h; exact .enter isr
    · cases h
  | isr => exact prvIsr_step h

section Due

variable {s s' : Shared} {e : Env} {c : List Nat}

theorem bit_bus {st : Stage 16} {w m : U16} {busy : Bool} (hm : isSet i2cIrqBb m = false) (hs : SingleBit m) :
    st.due (if busy then w ||| i2cIrqBb else w &&& ~~~i2cIrqBb) m = st.due w m := by
  cases busy <;> cases st <;> simp [Stage.due, isSet_clear hs, hm]

/-- An ARDY becomes due only by being raised. -/
theorem EnvStep.ardyDue (h : EnvStep s e s') (he : ∀ t, e ≠ .ardy t) (due : s'.ardyDue = true) :
    s.ardyDue = true := by
  unfold Shared.ardyDue at *
  cases h with
  | bus busy => rwa [bit_bus (by decide) singleBit_ardy] at due
  | xrdy | rrdy | nack | al =>
    exact (due_raise_other s.isr.ardyStage (by decide)).symm.trans due
  | ardy t => exact absurd rfl (he t)
  | latch isr any => rw [isr]; exact due_latch.symm.trans due
  | stop irq isr bit => rw [Isr.ardyStage, due_run bit] at due; cases due
  | skipStop irq isr bit => rw [isr]; rwa [Isr.ardyStage, due_skip bit] at due
  | ack irq isr => rw [isr]; rwa [Isr.ardyStage, due_ack singleBit_ardy] at due
  | enter isr | finish isr | readLen irq isr | skipRead irq isr | readData irq isr | readDone irq isr
  | writeLen irq isr | skipWrite irq isr | writeData irq isr | wake irq isr => rw [isr]; exact due

/-- Running `complete(&comp_stop)` settles the ARDY that was due. -/
theorem ardyDue_stop {irq : U16} (isr : s.isr = .ardy irq) (bit : isSet irq i2cIrqArdy = true) :
    s.ardyDue = true ∧ ({ s with isr := .rrdyLen irq, compStop := c } : Shared).ardyDue = false := by
  refine ⟨?_, due_run bit⟩
  rw [Shared.ardyDue, isr]
  exact due_ahead bit

/-- An RRDY becomes due only by being raised. -/
theorem EnvStep.rrdyDue (h : EnvStep s e s') (he : ∀ t b, e ≠ .rrdy t b) (due : s'.rrdyDue = true)
    (latched : s.isr.Latched) : s.rrdyDue = true := by
  unfold Shared.rrdyDue at *
  cases h with
  | bus busy => rwa [bit_bus (by decide) singleBit_rrdy] at due
  | xrdy | ardy | nack | al =>
    exact (due_raise_other s.isr.rrdyStage (by decide)).symm.trans due
  | rrdy t b => exact absurd rfl (he t b)
  | latch isr any => rw [isr]; exact due_latch.symm.trans due
  | skipRead irq isr bit => rw [isr]; rwa [Isr.rrdyStage, due_skip bit] at due
  | readData irq isr =>
    rw [isr] at latched
    rw [Isr.rrdyStage, due_run latched] at due; cases due
  | ack irq isr => rw [isr]; rwa [Isr.rrdyStage, due_ack singleBit_rrdy] at due
  | enter isr | finish isr | stop irq isr | skipStop irq isr | readLen irq isr | readDone irq isr
  | writeLen irq isr | skipWrite irq isr | writeData irq isr | wake irq isr => rw [isr]; exact due

/-- An XRDY becomes due only by being raised. -/
theorem EnvStep.xrdyDue (h : EnvStep s e s') (he : ∀ t, e ≠ .xrdy t) (due : s'.xrdyDue = true) :
    s.xrdyDue = true := by
  unfold Shared.xrdyDue at *
  cases h with
  | bus busy => rwa [bit_bus (by decide) singleBit_xrdy] at due
  | ardy | rrdy | nack | al =>
    exact (due_raise_other s.isr.xrdyStage (by decide)).symm.trans due
  | xrdy t => exact absurd rfl (he t)
  | latch isr any => rw [isr]; exact due_latch.symm.trans due
  | skipWrite irq isr bit => rw [isr]; rwa [Isr.xrdyStage, due_skip bit] at due
  | writeLen irq isr bit => rw [Isr.xrdyStage, due_run bit] at due; cases due
  | ack irq isr => rw [isr]; rwa [Isr.xrdyStage, due_ack singleBit_xrdy] at due
  | enter isr | finish isr | stop irq isr | skipStop irq isr | readLen irq isr | skipRead irq isr
  | readData irq isr | readDone irq isr | writeData irq isr | wake irq isr => rw [isr]; exact due

end Due

end Beaglebone.I2c
