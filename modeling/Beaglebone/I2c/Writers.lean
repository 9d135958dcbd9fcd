import Beaglebone.I2c.Readers

/-!
# What is written to the bus

The bytes of a call are loaded into `g_write` high byte first, and `g_len` counts
them down as the handler pushes them. `Written` links `g_len`, CNT, the interrupts
raised and the bytes already pushed, in runs without timeouts whose controller
raises ARDY for a transmission only after all its bytes. While a transmission is
in progress, the bytes pushed and the bytes left make up the call's bytes
(`Proc.Sending`), and its ARDY comes when nothing is left, also when a signal cuts
the wait for `g_len` short.
-/

namespace Beaglebone.I2c

open Machine

/-- The bytes that a call transmits, in the order of the bus. -/
def Call.bytes : Call → List U8
  | .write value regAddress _ => [regAddress, value]
  | .read address _ => [address]

/-- The START of the transmission in progress. -/
def Proc.txWindow (l : Proc) : Option Nat :=
  match l.pc with
  | .waitLen | .waitStop .tx => some l.tx
  | _ => none

def txWindow (o : Option Proc) : Option Nat := o.bind Proc.txWindow

/-- The call's bytes, as pushed for its first START. -/
def Proc.pushes (l : Proc) (bs : List U8) : List (Nat × Option U8) := bs.map fun b => (l.tx, some b)

/-- `g_write` holds the call's bytes. -/
def Call.Loaded (c : Call) (s : Shared) : Prop :=
  s.gWrite0 = c.lowByte ∧ (c.isRead = false → s.gWrite1 = c.highByte)

/-- Before START: SA, `g_len` and CNT are set. -/
structure Proc.Counted (l : Proc) (s : Shared) : Prop where
  pushed : s.pushed = []
  sa : s.sa = l.call.slaveAddress.setWidth 32
  len : s.gLen = l.call.count .tx
  cnt : s.cnt = l.call.count .tx

/-- The transmission of the START `l.tx` is in progress. -/
structure Proc.Sending (l : Proc) (s : Shared) : Prop where
  latest : l.tx = s.nstart
  loaded : l.call.Loaded s
  tx : (s.starts l.tx).tx = true
  cnt : (s.starts l.tx).cnt = l.call.count .tx
  sa : (s.starts l.tx).sa = l.call.slaveAddress.setWidth 32
  left : s.gLen.toNat + (s.starts l.tx).sent + s.isr.writeTaken.toNat = l.call.bytes.length
  owed : (s.starts l.tx).sent + s.isr.writeTaken.toNat + s.xrdyDue.toNat ≤ (s.starts l.tx).xrdy
  pushed : s.pushed = l.pushes (l.call.bytes.take (s.starts l.tx).sent)

/-- The transmission is over. -/
structure Proc.Sent (l : Proc) (s : Shared) : Prop where
  known : l.tx ≤ s.nstart
  sa : (s.starts l.tx).sa = l.call.slaveAddress.setWidth 32
  pushed : s.pushed = l.pushes l.call.bytes

/-- How far the owner's transmission is. -/
def Proc.Wrote (l : Proc) (s : Shared) : Prop :=
  match l.pc with
  | .setSlave => s.pushed = []
  | .setLen .tx => s.pushed = [] ∧ s.sa = l.call.slaveAddress.setWidth 32
  | .setCnt .tx => s.pushed = [] ∧ s.sa = l.call.slaveAddress.setWidth 32 ∧ s.gLen = l.call.count .tx
  | .putReg => l.Counted s
  | .putLow => l.Counted s ∧ (l.call.isRead = false → s.gWrite1 = l.call.highByte)
  | .clearFifo | .start .tx => l.Counted s ∧ l.call.Loaded s
  | .waitLen | .waitStop .tx => l.Sending s
  | .waitRead | .waitStop .rx => l.Sent s ∧ (s.starts l.rx).tx = false
  | _ => l.Sent s

/-- The controller raises ARDY for a transmission only after its CNT bytes, and
no wait elapses. -/
def orderly : Monitor.Cond Proc Shared Input Env where
  env _ s
    | .ardy t => (s.starts t).tx = true → (s.starts t).sent = (s.starts t).cnt.toNat
    | _ => True
  proc _ _ i := i ≠ .timeout

/-- The invariant of the owner of `lock_bus` and the shared state. -/
structure Written (o : Option Proc) (s : Shared) : Prop where
  calm : Calm o s
  bound : ∀ t, (s.starts t).sent ≤ (s.starts t).xrdy ∧ (s.starts t).xrdy ≤ (s.starts t).cnt.toNat
  done : ∀ t, (s.starts t).tx = true → (s.starts t).ardy = true →
    (s.starts t).sent = (s.starts t).cnt.toNat
  due : s.xrdyDue = true → txWindow o ≠ none
  taken : s.isr.writeTaken = true → txWindow o ≠ none
  owner : ∀ l, o = some l → l.Wrote s

theorem written_initial : Written none {} where
  calm := calm_initial
  bound := by simp
  done := by simp
  due := by simp [Shared.xrdyDue, Isr.xrdyStage, Stage.due]
  taken := by simp [Isr.writeTaken]
  owner := by simp

variable {o o' : Option Proc} {l l' : Proc} {s s' : Shared} {e : Env} {t : Nat} {c : Call}

/-- `prv_set_count` counts the call's bytes. -/
theorem Call.count_tx (c : Call) : (c.count .tx).toNat = c.bytes.length := by
  cases c <;> rfl

/-- **The count-down index**: when `g_len` and the bytes sent leave one byte in
hand, `g_write[g_len]` is the next byte of the call. -/
theorem Call.Loaded.next (h : c.Loaded s) {n : Nat} (left : s.gLen.toNat + n + 1 = c.bytes.length) :
    s.writeByte = c.bytes[n]? := by
  obtain ⟨low, high⟩ := h
  unfold Shared.writeByte
  cases c with
  | read a d =>
    simp only [Call.bytes, List.length_singleton] at left ⊢
    obtain ⟨hl, rfl⟩ : s.gLen.toNat = 0 ∧ n = 0 := by omega
    simp [hl, low, Call.lowByte]
  | write v r d =>
    simp only [Call.bytes, List.length_cons, List.length_nil] at left ⊢
    obtain ⟨hl, rfl⟩ | ⟨hl, rfl⟩ : (s.gLen.toNat = 1 ∧ n = 0) ∨ (s.gLen.toNat = 0 ∧ n = 1) := by omega
    · simp [hl, high rfl, Call.highByte]
    · simp [hl, low, Call.lowByte]

/-- The owner is in its transmission. -/
theorem Written.sending (h : Written o s) (w : txWindow o ≠ none) :
    ∃ l, o = some l ∧ l.Sending s ∧ (l.pc = .waitLen ∨ l.pc = .waitStop .tx) := by
  cases ho : o with
  | none => rw [ho] at w; exact absurd rfl w
  | some l =>
    have wrote := h.owner l ho
    refine ⟨l, rfl, ?_⟩
    rw [ho] at w
    unfold txWindow Option.bind Proc.txWindow at w
    unfold Proc.Wrote at wrote
    simp only at w
    split at w
    · next pc => rw [pc] at wrote; exact ⟨wrote, .inl pc⟩
    · next pc => rw [pc] at wrote; exact ⟨wrote, .inr pc⟩
    · exact absurd rfl w

/-- Conversely, the record of the owner's transmission. -/
theorem Proc.Sending.wrote (h : l.Sending s) (pc : l.pc = .waitLen ∨ l.pc = .waitStop .tx) :
    l.Wrote s := by
  rcases pc with pc | pc <;> simpa [Proc.Wrote, pc] using h

/-- What a step that has nothing to do with the transmission leaves alone. -/
structure SameSend (s s' : Shared) : Prop where
  pushed : s'.pushed = s.pushed
  sa : s'.sa = s.sa
  cnt : s'.cnt = s.cnt
  gLen : s'.gLen = s.gLen
  gWrite0 : s'.gWrite0 = s.gWrite0
  gWrite1 : s'.gWrite1 = s.gWrite1
  nstart : s'.nstart = s.nstart
  taken : s'.isr.writeTaken = s.isr.writeTaken
  due : s'.xrdyDue = true → s.xrdyDue = true
  starts : ∀ t, ∃ rx ardy, s'.starts t = { s.starts t with rx := rx, ardy := ardy }

theorem Proc.Counted.frame (h : l.Counted s) (same : SameSend s s') : l.Counted s' where
  pushed := same.pushed.trans h.pushed
  sa := same.sa.trans h.sa
  len := same.gLen.trans h.len
  cnt := same.cnt.trans h.cnt

theorem Proc.Sent.frame (h : l.Sent s) (same : SameSend s s') : l.Sent s' where
  known := by rw [same.nstart]; exact h.known
  sa := by obtain ⟨_, _, e⟩ := same.starts l.tx; rw [e]; exact h.sa
  pushed := same.pushed.trans h.pushed

theorem Proc.Sending.frame (h : l.Sending s) (same : SameSend s s') : l.Sending s' := by
  obtain ⟨_, _, e⟩ := same.starts l.tx
  have due : s'.xrdyDue.toNat ≤ s.xrdyDue.toNat := by
    cases d : s'.xrdyDue with
    | false => exact Nat.zero_le _
    | true => rw [same.due d]
  exact {
    latest := h.latest.trans same.nstart.symm
    loaded := ⟨same.gWrite0.trans h.loaded.1, fun w => same.gWrite1.trans (h.loaded.2 w)⟩
    tx := by rw [e]; exact h.tx
    cnt := by rw [e]; exact h.cnt
    sa := by rw [e]; exact h.sa
    left := by rw [e, same.gLen, same.taken]; exact h.left
    owed := by
      rw [e, same.taken]
      exact Nat.le_trans (Nat.add_le_add_left due _) h.owed
    pushed := by rw [e]; exact same.pushed.trans h.pushed }

theorem Proc.Wrote.frame (h : l.Wrote s) (same : SameSend s s') : l.Wrote s' := by
  have empty : s.pushed = [] → s'.pushed = [] := same.pushed.trans
  unfold Proc.Wrote at *
  split at h
  · exact empty h
  · exact ⟨empty h.1, same.sa.trans h.2⟩
  · exact ⟨empty h.1, same.sa.trans h.2.1, same.gLen.trans h.2.2⟩
  · exact h.frame same
  · exact ⟨h.1.frame same, fun w => same.gWrite1.trans (h.2 w)⟩
  · exact ⟨h.1.frame same, same.gWrite0.trans h.2.1, fun w => same.gWrite1.trans (h.2.2 w)⟩
  · exact ⟨h.1.frame same, same.gWrite0.trans h.2.1, fun w => same.gWrite1.trans (h.2.2 w)⟩
  · exact h.frame same
  · exact h.frame same
  · obtain ⟨_, _, e⟩ := same.starts l.rx; rw [e]; exact ⟨h.1.frame same, h.2⟩
  · obtain ⟨_, _, e⟩ := same.starts l.rx; rw [e]; exact ⟨h.1.frame same, h.2⟩
  · exact h.frame same

/-- A step of the environment that has nothing to do with the transmission. -/
theorem Written.frame (h : Written o s) (calm : Calm o s') (same : SameSend s s')
    (done : ∀ t, (s.starts t).tx = true → (s'.starts t).ardy = true →
      (s.starts t).sent = (s.starts t).cnt.toNat) : Written o s' where
  calm := calm
  bound t := by obtain ⟨_, _, e⟩ := same.starts t; rw [e]; exact h.bound t
  done t tx raised := by
    have := done t
    obtain ⟨_, _, e⟩ := same.starts t
    rw [e] at tx ⊢
    exact this tx raised
  due d := h.due (same.due d)
  taken d := h.taken (same.taken ▸ d)
  owner l hl := (h.owner l hl).frame same

/-- A step of the handler or the controller in the middle of a transmission. -/
theorem Written.during (h : Written o s) (calm : Calm o s') (w : txWindow o ≠ none)
    (bound : ∀ t, (s'.starts t).sent ≤ (s'.starts t).xrdy ∧ (s'.starts t).xrdy ≤ (s'.starts t).cnt.toNat)
    (done : ∀ t, (s'.starts t).tx = true → (s'.starts t).ardy = true →
      (s'.starts t).sent = (s'.starts t).cnt.toNat)
    (sending : ∀ l, o = some l → l.Sending s → l.Sending s') : Written o s' where
  calm := calm
  bound := bound
  done := done
  due _ := w
  taken _ := w
  owner l hl := by
    obtain ⟨l', hl', was, pc⟩ := h.sending w
    obtain rfl : l = l' := Option.some.inj (hl.symm.trans hl')
    exact (sending l hl was).wrote pc

/-- An XRDY is raised only for the transmission in progress. -/
theorem Written.xrdy_owner (h : Written o s) (issued : s.issued t) (tx : (s.starts t).tx = true)
    (left : (s.starts t).xrdy < (s.starts t).cnt.toNat) :
    txWindow o ≠ none ∧ ∀ l, o = some l → l.Sending s → l.tx = t := by
  have notDone : (s.starts t).ardy ≠ true := fun raised => by
    have sent := h.done t tx raised
    have := (h.bound t).1
    omega
  have window : stopWindow o = some t := by
    by_contra w
    exact notDone (h.calm.settled.ardy t issued w)
  obtain ⟨l, rfl, w⟩ : ∃ l, o = some l ∧ l.stopWindow = some t := Option.bind_eq_some_iff.1 window
  have going := h.calm.settled.going l rfl
  have wrote := h.owner l rfl
  unfold Proc.stopWindow at w
  split at w
  · next pc => exact ⟨by simp [txWindow, Proc.txWindow, pc], by rintro _ ⟨⟩ _; exact Option.some.inj w⟩
  · next pc => exact ⟨by simp [txWindow, Proc.txWindow, pc], by rintro _ ⟨⟩ _; exact Option.some.inj w⟩
  · next pc => rw [pc] at going; cases going
  · next pc => simp only [Proc.Wrote, pc] at wrote; cases w; rw [wrote.2] at tx; cases tx
  · next pc => simp only [Proc.Wrote, pc] at wrote; cases w; rw [wrote.2] at tx; cases tx
  · next pc => rw [pc] at going; cases going
  · next pc => rw [pc] at going; cases going
  · cases w

/-- `g_len--` for a raised XRDY takes the next byte in hand. -/
theorem Proc.Sending.take (h : l.Sending s) {irq : U16} (isr : s.isr = .xrdyLen irq)
    (bit : isSet irq i2cIrqXrdy = true) (bound : (s.starts l.tx).xrdy ≤ (s.starts l.tx).cnt.toNat) :
    l.Sending { s with isr := .xrdyData irq, gLen := s.gLen - 1 } := by
  have due : s.xrdyDue = true := by rw [Shared.xrdyDue, isr]; exact due_ahead bit
  have isnt : ({ s with isr := .xrdyData irq, gLen := s.gLen - 1 } : Shared).xrdyDue = false := due_run bit
  have idle : s.isr.writeTaken = false := by rw [isr]; rfl
  have left := h.left
  have owed := h.owed
  rw [due, idle, Bool.toNat_true, Bool.toNat_false] at owed
  rw [idle, Bool.toNat_false] at left
  rw [h.cnt, l.call.count_tx] at bound
  -- a byte is owed, so the count is not zero
  have dec : (s.gLen - 1).toNat = s.gLen.toNat - 1 := by
    have pos : 1#16 ≤ s.gLen := BitVec.le_def.2 (by show 1 ≤ s.gLen.toNat; omega)
    exact BitVec.toNat_sub_of_le pos
  exact { h with
    left := by
      show (s.gLen - 1).toNat + (s.starts l.tx).sent + 1 = l.call.bytes.length
      omega
    owed := by
      rw [isnt]
      show (s.starts l.tx).sent + 1 + 0 ≤ (s.starts l.tx).xrdy
      omega }

/-- A push counts in the record of the latest START and changes no other field. -/
theorem push_field {β : Type} (g : Start → β) (h : ∀ r n, g { r with sent := n } = g r) (t : Nat) :
    g (s.push.starts t) = g (s.starts t) :=
  upd_field g (h _ _) t

theorem push_sent : (s.push.starts s.nstart).sent = (s.starts s.nstart).sent + 1 :=
  congrArg Start.sent (upd_same _ _ _)

/-- `prv_write(g_write[g_len])` pushes the byte in hand. -/
theorem Proc.Sending.push (h : l.Sending s) {irq : U16} (isr : s.isr = .xrdyData irq)
    (due : ({ s.push with isr := .xrdyWake irq } : Shared).xrdyDue = true → s.xrdyDue = true) :
    l.Sending { s.push with isr := .xrdyWake irq } := by
  have inHand : s.isr.writeTaken = true := by rw [isr]; rfl
  have left := h.left
  have owed := h.owed
  rw [inHand, Bool.toNat_true] at left owed
  have next := h.loaded.next left
  have lt : (s.starts l.tx).sent < l.call.bytes.length := by omega
  have sent : (s.push.starts l.tx).sent = (s.starts l.tx).sent + 1 := by rw [h.latest, push_sent]
  have due' : ({ s.push with isr := .xrdyWake irq } : Shared).xrdyDue.toNat ≤ s.xrdyDue.toNat := by
    cases d : ({ s.push with isr := .xrdyWake irq } : Shared).xrdyDue with
    | false => exact Nat.zero_le _
    | true => rw [due d]
  exact {
    latest := h.latest
    loaded := h.loaded
    tx := (push_field Start.tx (fun _ _ => rfl) l.tx).trans h.tx
    cnt := (push_field Start.cnt (fun _ _ => rfl) l.tx).trans h.cnt
    sa := (push_field Start.sa (fun _ _ => rfl) l.tx).trans h.sa
    left := by
      show s.gLen.toNat + (s.push.starts l.tx).sent + 0 = l.call.bytes.length
      rw [sent]
      omega
    owed := by
      show (s.push.starts l.tx).sent + 0 + _ ≤ (s.push.starts l.tx).xrdy
      rw [sent, push_field Start.xrdy fun _ _ => rfl]
      exact Nat.le_trans (Nat.add_le_add_left due' _) (by omega)
    pushed := by
      show s.pushed ++ [(s.nstart, s.writeByte)] = l.pushes (l.call.bytes.take (s.push.starts l.tx).sent)
      rw [sent, h.pushed, next, ← h.latest, List.getElem?_eq_getElem lt, List.take_add_one,
        List.getElem?_eq_getElem lt]
      simp only [Proc.pushes, Option.toList_some, List.map_append, List.map_cons, List.map_nil] }

theorem Written.env (h : Written o s) (ok : orderly.env o s e) (hs : EnvStep s e s') : Written o s' := by
  have calm : Calm o s' :=
    ⟨h.calm.isolated.env (h.calm.settled.attended e) hs, h.calm.settled.env h.calm.isolated hs⟩
  have due : (∀ t, e ≠ .xrdy t) → s'.xrdyDue = true → s.xrdyDue = true := hs.xrdyDue
  have latched := h.calm.settled.latched
  have still : ∀ t, ∃ rx ardy, s.starts t = { s.starts t with rx := rx, ardy := ardy } :=
    fun t => ⟨_, _, rfl⟩
  cases hs with
  | xrdy t issued tx left =>
    obtain ⟨w, own⟩ := h.xrdy_owner issued tx left
    have keep := fun {β : Type} (g : Start → β)
      (hg : g { s.starts t with xrdy := (s.starts t).xrdy + 1 } = g (s.starts t)) =>
      upd_field g (f := s.starts) (t := t) hg
    refine h.during calm w (fun u => ?_) (fun u tx raised => ?_) fun l hl sending => ?_
    · by_cases hu : u = t
      · subst hu
        simp only [upd_same]
        exact ⟨Nat.le_succ_of_le (h.bound u).1, left⟩
      · simp only [upd_other _ _ hu]
        exact h.bound u
    · have done := h.done u ((keep Start.tx rfl u).symm.trans tx) ((keep Start.ardy rfl u).symm.trans raised)
      exact (keep Start.sent rfl u).trans (done.trans (congrArg BitVec.toNat (keep Start.cnt rfl u)).symm)
    · obtain rfl := own l hl sending
      have owed := sending.owed
      exact { sending with
        tx := (keep Start.tx rfl _).trans sending.tx
        cnt := (keep Start.cnt rfl _).trans sending.cnt
        sa := (keep Start.sa rfl _).trans sending.sa
        left := by rw [← sending.left]; simp only [keep Start.sent rfl]
        owed := by
          simp only [upd_same]
          exact Nat.le_trans (Nat.add_le_add_left (Bool.toNat_le _) _) (by omega)
        pushed := by rw [sending.pushed]; simp only [keep Start.sent rfl] }
  | ardy t issued fresh =>
    refine h.frame calm ⟨rfl, rfl, rfl, rfl, rfl, rfl, rfl, rfl, due (by simp), fun u => ?_⟩ fun u tx raised => ?_
    · by_cases hu : u = t
      · subst hu; exact ⟨_, _, upd_same _ _ _⟩
      · exact ⟨_, _, upd_other _ _ hu⟩
    · by_cases hu : u = t
      · subst hu; exact ok tx
      · exact h.done u tx ((congrArg Start.ardy (upd_other s.starts _ hu)).symm.trans raised)
  | rrdy t b issued rx fresh =>
    refine h.frame calm ⟨rfl, rfl, rfl, rfl, rfl, rfl, rfl, rfl, due (by simp), fun u => ?_⟩ fun u tx raised => ?_
    · by_cases hu : u = t
      · subst hu; exact ⟨_, _, upd_same _ _ _⟩
      · exact ⟨_, _, upd_other _ _ hu⟩
    · have keep := upd_field Start.ardy (f := s.starts) (t := t) (r := { s.starts t with rx := some b }) rfl u
      exact h.done u tx (keep.symm.trans raised)
  | readLen irq isr bit =>
    have here : byteWindow o = some s.dataBy := by
      refine h.calm.settled.read ?_
      rw [Shared.rrdyDue, isr]
      exact due_ahead bit
    obtain ⟨l, rfl, w⟩ : ∃ l, o = some l ∧ l.byteWindow = some s.dataBy := Option.bind_eq_some_iff.1 here
    have pc : l.pc = .waitRead := by
      unfold Proc.byteWindow at w
      split at w
      · assumption
      · cases w
    have wrote := h.owner l rfl
    simp only [Proc.Wrote, pc] at wrote
    exact { h with
      calm := calm
      due := fun d => h.due (due (by simp) d)
      taken := by simp [Isr.writeTaken]
      owner := by
        rintro _ ⟨⟩
        simp only [Proc.Wrote, pc]
        exact ⟨{ wrote.1 with }, wrote.2⟩ }
  | writeLen irq isr bit =>
    have w : txWindow o ≠ none := by
      refine h.due ?_
      rw [Shared.xrdyDue, isr]
      exact due_ahead bit
    exact h.during calm w h.bound h.done fun l _ sending => sending.take isr bit (h.bound l.tx).2
  | writeData irq isr =>
    have w : txWindow o ≠ none := h.taken (by rw [isr]; rfl)
    have room : ∀ l, o = some l → l.Sending s → (s.starts s.nstart).sent < (s.starts s.nstart).xrdy := by
      intro l _ sending
      have owed := sending.owed
      rw [isr, sending.latest] at owed
      simp only [Isr.writeTaken, Bool.toNat_true] at owed
      omega
    obtain ⟨l, hl, sending, -⟩ := h.sending w
    have lt := room l hl sending
    refine h.during calm w (fun u => ?_) (fun u tx raised => ?_) fun l hl sending => sending.push isr (due (by simp))
    · by_cases hu : u = s.nstart
      · subst hu
        show (s.push.starts _).sent ≤ (s.push.starts _).xrdy ∧ (s.push.starts _).xrdy ≤ _
        rw [push_sent, push_field Start.xrdy fun _ _ => rfl]
        exact ⟨lt, (h.bound _).2.trans_eq (congrArg BitVec.toNat (push_field Start.cnt (fun _ _ => rfl) _)).symm⟩
      · show (s.push.starts u).sent ≤ _ ∧ _
        have same : s.push.starts u = s.starts u := upd_other _ _ hu
        simp only [same]
        exact h.bound u
    · have tx' := (push_field Start.tx (fun _ _ => rfl) u).symm.trans tx
      have done := h.done u tx' ((push_field Start.ardy (fun _ _ => rfl) u).symm.trans raised)
      by_cases hu : u = s.nstart
      · -- its ARDY has not been raised: a byte is still in hand
        subst hu
        have := (h.bound s.nstart).2
        omega
      · have same : s.push.starts u = s.starts u := upd_other _ _ hu
        simp only [same]
        exact done
  | bus | nack | al =>
    exact h.frame calm ⟨rfl, rfl, rfl, rfl, rfl, rfl, rfl, rfl, due (by simp), still⟩ h.done
  | enter isr | latch isr | finish isr | stop irq isr | skipStop irq isr | skipRead irq isr
  | readData irq isr | readDone irq isr | skipWrite irq isr | wake irq isr | ack irq isr =>
    exact h.frame calm
      ⟨rfl, rfl, rfl, rfl, rfl, rfl, rfl, by rw [isr]; rfl, due (by simp), still⟩ h.done

/-- A statement of a call other than START and the end of a transmission. -/
theorem Written.move (h : Written o s) (calm : Calm o' s') (bus : SameBus s s')
    (w : txWindow o ≠ none → txWindow o' ≠ none) (owner : ∀ l, o' = some l → l.Wrote s') : Written o' s' where
  calm := calm
  bound := by rw [bus.starts]; exact h.bound
  done := by rw [bus.starts]; exact h.done
  due d := w (h.due (by unfold Shared.xrdyDue at *; rwa [bus.isr, bus.status] at d))
  taken d := w (h.taken (by rwa [bus.isr] at d))
  owner := owner

/-- Nothing is owed to a finished transmission. -/
theorem Proc.Sending.finish (h : l.Sending s) (all : (s.starts l.tx).sent = (s.starts l.tx).cnt.toNat)
    (bound : (s.starts l.tx).xrdy ≤ (s.starts l.tx).cnt.toNat) :
    l.Sent s ∧ s.xrdyDue = false ∧ s.isr.writeTaken = false := by
  have owed := h.owed
  have sent : (s.starts l.tx).sent = l.call.bytes.length := by rw [all, h.cnt, l.call.count_tx]
  refine ⟨⟨Nat.le_of_eq h.latest, h.sa, ?_⟩, ?_, ?_⟩
  · rw [h.pushed, sent, List.take_length]
  · cases d : s.xrdyDue with
    | false => rfl
    | true => rw [d, Bool.toNat_true] at owed; omega
  · cases d : s.isr.writeTaken with
    | false => rfl
    | true => rw [d, Bool.toNat_true] at owed; omega

/-- A new START has pushed nothing and raised nothing. -/
theorem Written.issue (h : Written o s) (ph : Phase) :
    (∀ u, ((s.issue ph).starts u).sent ≤ ((s.issue ph).starts u).xrdy ∧
      ((s.issue ph).starts u).xrdy ≤ ((s.issue ph).starts u).cnt.toNat) ∧
    ∀ u, ((s.issue ph).starts u).tx = true → ((s.issue ph).starts u).ardy = true →
      ((s.issue ph).starts u).sent = ((s.issue ph).starts u).cnt.toNat := by
  have self : (s.issue ph).starts s.next = { tx := isSet (conWord ph) i2cBitTx, cnt := s.cnt, sa := s.sa } :=
    upd_same _ _ _
  have old : ∀ u, u ≠ s.next → (s.issue ph).starts u = s.starts u := fun u hu => upd_other _ _ hu
  refine ⟨fun u => ?_, fun u tx raised => ?_⟩
  · by_cases hu : u = s.next
    · subst hu; rw [self]; simp
    · rw [old u hu]; exact h.bound u
  · by_cases hu : u = s.next
    · subst hu; rw [self] at raised; cases raised
    · rw [old u hu] at tx raised ⊢; exact h.done u tx raised

theorem Proc.afterStop_tx (l : Proc) :
    l.afterStop .tx = .setLen .rx ∨ l.afterStop .tx = .reinitStop .tx .done := by
  cases hc : l.call with
  | write => exact .inr (by simp [Proc.afterStop, hc])
  | read => exact .inl (by simp [Proc.afterStop, hc])

theorem Proc.Sent.wrote (h : l.Sent s) (pc : l.pc = .setLen .rx ∨ l.pc = .reinitStop .tx .done) :
    l.Wrote s := by
  rcases pc with pc | pc <;> simpa [Proc.Wrote, pc] using h

/-- START of a transmission: nothing is owed from before. -/
theorem Written.startTx (h : Written (some l) s) (calm : Calm (some ((l.issued s.next .tx).goto .waitLen)) (s.issue .tx))
    (pc : l.pc = .start .tx) : Written (some ((l.issued s.next .tx).goto .waitLen)) (s.issue .tx) := by
  have out : txWindow (some l) = none := by simp [txWindow, Proc.txWindow, pc]
  have noDue : s.xrdyDue = false := Bool.eq_false_iff.2 fun d => h.due d out
  have idle : s.isr.writeTaken = false := Bool.eq_false_iff.2 fun d => h.taken d out
  have wrote := h.owner l rfl
  simp only [Proc.Wrote, pc] at wrote
  obtain ⟨counted, loaded⟩ := wrote
  have self : (s.issue .tx).starts s.next = { tx := true, cnt := s.cnt, sa := s.sa } := upd_same _ _ _
  refine ⟨calm, (h.issue .tx).1, (h.issue .tx).2, fun d => ?_, fun d => ?_, ?_⟩
  · simp [txWindow, Proc.txWindow]
  · simp [txWindow, Proc.txWindow]
  · rintro _ ⟨⟩
    show ((l.issued s.next .tx).goto .waitLen).Sending (s.issue .tx)
    exact {
      latest := rfl
      loaded := loaded
      tx := congrArg Start.tx self
      cnt := (congrArg Start.cnt self).trans counted.cnt
      sa := (congrArg Start.sa self).trans counted.sa
      left := by
        show s.gLen.toNat + ((s.issue .tx).starts s.next).sent + s.isr.writeTaken.toNat = l.call.bytes.length
        rw [self, idle, counted.len, l.call.count_tx]
        rfl
      owed := by
        show ((s.issue .tx).starts s.next).sent + s.isr.writeTaken.toNat + s.xrdyDue.toNat ≤
          ((s.issue .tx).starts s.next).xrdy
        rw [self, idle, noDue]
        rfl
      pushed := by
        show s.pushed = Proc.pushes _ (l.call.bytes.take ((s.issue .tx).starts s.next).sent)
        rw [counted.pushed, self]
        rfl }

/-- START of a reception. -/
theorem Written.startRx (h : Written (some l) s) (calm : Calm (some ((l.issued s.next .rx).goto .waitRead)) (s.issue .rx))
    (pc : l.pc = .start .rx) : Written (some ((l.issued s.next .rx).goto .waitRead)) (s.issue .rx) := by
  have out : txWindow (some l) = none := by simp [txWindow, Proc.txWindow, pc]
  have wrote := h.owner l rfl
  simp only [Proc.Wrote, pc] at wrote
  have self : (s.issue .rx).starts s.next = { tx := false, cnt := s.cnt, sa := s.sa } := upd_same _ _ _
  have old : (s.issue .rx).starts l.tx = s.starts l.tx :=
    upd_other _ _ (Nat.ne_of_lt (Nat.lt_succ_of_le wrote.known))
  refine ⟨calm, (h.issue .rx).1, (h.issue .rx).2, fun d => absurd out (h.due d), fun d => absurd out (h.taken d), ?_⟩
  rintro _ ⟨⟩
  refine ⟨⟨Nat.le_succ_of_le wrote.known, ?_, wrote.pushed⟩, congrArg Start.tx self⟩
  exact (congrArg Start.sa old).trans wrote.sa

theorem Written.own {b : Bool} {i : Input} {m : Move Proc Shared Ret} (h : Written (some l) s)
    (calm : Calm (some m.loc) m.shared) (inside : l.pc.inside = true) (untimed : i ≠ .timeout)
    (hs : Stmt b l s i m) (keep : m.op = .keep) : Written (some m.loc) m.shared := by
  have wrote := h.owner l rfl
  have going := h.calm.settled.going l rfl
  -- the places outside the transmission keep it settled
  have out : ∀ pc, l.pc = pc → (pc ≠ .waitLen ∧ pc ≠ .waitStop .tx) →
      txWindow (some l) ≠ none → txWindow (some m.loc) ≠ none := by
    rintro _ rfl ⟨ne, ne'⟩ w
    exfalso
    obtain ⟨_, ⟨⟩, -, pc | pc⟩ := h.sending w
    · exact ne pc
    · exact ne' pc
  cases hs with
  | call | wakeup | spin | awake | again | refused | granted | lock | leave =>
    simp_all [Pc.inside]
  | unlock => cases keep
  | elapsedLen | elapsedRead | elapsedStop => exact absurd rfl untimed
  | setSlave pc =>
    simp only [Proc.Wrote, pc] at wrote
    exact h.move calm ⟨rfl, rfl, rfl, rfl, rfl, rfl, rfl⟩ (out _ pc (by simp))
      (by rintro _ ⟨⟩; exact ⟨wrote, rfl⟩)
  | setLen ph pc =>
    refine h.move calm ⟨rfl, rfl, rfl, rfl, rfl, rfl, rfl⟩ (out _ pc (by simp)) ?_
    rintro _ ⟨⟩
    cases ph with
    | tx =>
      simp only [Proc.Wrote, pc] at wrote
      exact ⟨wrote.1, wrote.2, rfl⟩
    | rx =>
      simp only [Proc.Wrote, pc] at wrote
      exact { wrote with }
  | setCnt ph pc =>
    refine h.move calm ⟨rfl, rfl, rfl, rfl, rfl, rfl, rfl⟩ (out _ pc (by simp)) ?_
    rintro _ ⟨⟩
    cases ph with
    | tx =>
      simp only [Proc.Wrote, pc] at wrote
      obtain ⟨pushed, sa, len⟩ := wrote
      cases hc : l.call with
      | write v r a =>
        simp only [Proc.afterCnt, hc, Proc.Wrote, goto_pc]
        exact ⟨pushed, sa.trans rfl, len.trans rfl, congrArg (·.count .tx) hc.symm⟩
      | read a d =>
        simp only [Proc.afterCnt, hc, Proc.Wrote, goto_pc]
        exact ⟨⟨pushed, sa.trans rfl, len.trans rfl, congrArg (·.count .tx) hc.symm⟩,
          fun w => by simp [Proc.goto, hc, Call.isRead] at w⟩
    | rx =>
      simp only [Proc.Wrote, pc] at wrote
      exact { wrote with }
  | putReg pc =>
    simp only [Proc.Wrote, pc] at wrote
    exact h.move calm ⟨rfl, rfl, rfl, rfl, rfl, rfl, rfl⟩ (out _ pc (by simp))
      (by rintro _ ⟨⟩; exact ⟨{ wrote with }, fun _ => rfl⟩)
  | putLow pc =>
    simp only [Proc.Wrote, pc] at wrote
    exact h.move calm ⟨rfl, rfl, rfl, rfl, rfl, rfl, rfl⟩ (out _ pc (by simp))
      (by rintro _ ⟨⟩; exact ⟨{ wrote.1 with }, rfl, wrote.2⟩)
  | clearFifo pc =>
    simp only [Proc.Wrote, pc] at wrote
    exact h.move calm ⟨rfl, rfl, rfl, rfl, rfl, rfl, rfl⟩ (out _ pc (by simp))
      (by rintro _ ⟨⟩; exact ⟨{ wrote.1 with }, wrote.2⟩)
  | start ph pc =>
    cases ph with
    | tx => exact h.startTx calm pc
    | rx => exact h.startRx calm pc
  | written pc | interrupted pc =>
    simp only [Proc.Wrote, pc] at wrote
    exact h.move calm ⟨rfl, rfl, rfl, rfl, rfl, rfl, rfl⟩ (fun _ => by simp [txWindow, Proc.txWindow])
      (by rintro _ ⟨⟩; exact { wrote with })
  | takeRead t ts pc comp =>
    simp only [Proc.Wrote, pc] at wrote
    exact h.move calm ⟨rfl, rfl, rfl, rfl, rfl, rfl, rfl⟩ (out _ pc (by simp))
      (by rintro _ ⟨⟩; exact ⟨{ wrote.1 with }, wrote.2⟩)
  | takeStop ph t ts pc comp =>
    cases ph with
    | tx =>
      simp only [Proc.Wrote, pc] at wrote
      obtain ⟨rfl, rfl⟩ := h.calm.isolated.takeStop pc comp
      have raised : (s.starts l.tx).ardy = true := h.calm.isolated.raised _ (by rw [comp]; simp [Proc.startOf])
      obtain ⟨sent, noDue, idle⟩ := wrote.finish (h.done _ wrote.tx raised) (h.bound l.tx).2
      exact {
        calm := calm
        bound := h.bound
        done := h.done
        due := fun d => by rw [show s.xrdyDue = true from d] at noDue; cases noDue
        taken := fun d => by rw [show s.isr.writeTaken = true from d] at idle; cases idle
        owner := by
          rintro _ ⟨⟩
          exact Proc.Sent.wrote { sent with } (l.afterStop_tx) }
    | rx =>
      simp only [Proc.Wrote, pc] at wrote
      exact h.move calm ⟨rfl, rfl, rfl, rfl, rfl, rfl, rfl⟩ (out _ pc (by simp))
        (by rintro _ ⟨⟩; exact { wrote.1 with })
  | reinitRead o pc =>
    cases o with
    | failed => simp [pc, Pc.going] at going
    | done =>
      simp only [Proc.Wrote, pc] at wrote
      exact h.move calm ⟨rfl, rfl, rfl, rfl, rfl, rfl, rfl⟩ (out _ pc (by simp))
        (by rintro _ ⟨⟩; exact { wrote with })
  | reinitStop ph o pc =>
    simp only [Proc.Wrote, pc] at wrote
    exact h.move calm ⟨rfl, rfl, rfl, rfl, rfl, rfl, rfl⟩ (out _ pc (by simp))
      (by rintro _ ⟨⟩; exact { wrote with })

/-- What a call about to return a success has pushed. -/
def Proc.Accounted (l : Proc) (s : Shared) : Prop :=
  match l.pc with
  | .leave .done => l.tx ≤ s.nstart ∧ l.sent = l.pushes l.call.bytes ∧
      (s.starts l.tx).sa = l.call.slaveAddress.setWidth 32
  | _ => True

/-- A success has pushed exactly its own bytes to its own slave. -/
structure Ret.Whole (r : Ret) : Prop where
  bytes : 0 ≤ r.value → r.sent = r.call.bytes.map fun b => (r.tx, some b)
  slave : 0 ≤ r.value → r.txStart.sa = r.call.slaveAddress.setWidth 32

/-- An issued START keeps its slave. -/
theorem EnvStep.sa (hs : EnvStep s e s') :
    s'.nstart = s.nstart ∧ ∀ t, (s'.starts t).sa = (s.starts t).sa := by
  cases hs with
  | xrdy | rrdy | ardy => exact ⟨rfl, upd_field Start.sa rfl⟩
  | writeData => exact ⟨rfl, push_field Start.sa fun _ _ => rfl⟩
  | _ => exact ⟨rfl, fun _ => rfl⟩

theorem Stmt.sa {b : Bool} {i : Input} {m : Move Proc Shared Ret} (hs : Stmt b l s i m) (ht : t ≤ s.nstart) :
    t ≤ m.shared.nstart ∧ (m.shared.starts t).sa = (s.starts t).sa := by
  cases hs with
  | start ph pc =>
    exact ⟨Nat.le_succ_of_le ht, congrArg Start.sa (upd_other _ _ (Nat.ne_of_lt (Nat.lt_succ_of_le ht)))⟩
  | _ => exact ⟨ht, rfl⟩

theorem Proc.Accounted.congr (h : l.Accounted s)
    (keep : ∀ t ≤ s.nstart, t ≤ s'.nstart ∧ (s'.starts t).sa = (s.starts t).sa) : l.Accounted s' := by
  unfold Proc.Accounted at *
  split at h
  · obtain ⟨known, sent, sa⟩ := h
    exact ⟨(keep _ known).1, sent, (keep _ known).2.trans sa⟩
  · trivial

/-- The verification conditions of the transmissions. -/
theorem written_rules : i2c.Rules orderly Written Proc.Accounted Ret.Whole where
  env h ok hs := h.env ok (env_step hs)
  bystander _ _ _ k _ hs := k.congr fun t ht => by
    obtain ⟨ns, sa⟩ := (env_step hs).sa
    exact ⟨ns ▸ ht, sa t⟩
  own h inside ok hs keep := h.own (calm_rules.own h.calm inside ok hs keep) inside ok (Proc.run_stmt hs) keep
  leave := by
    intro b l s i m h inside ok hs op
    have calm := (calm_rules.leave h.calm inside ok hs op).1
    have wrote := h.owner l rfl
    have going := h.calm.settled.going l rfl
    cases Proc.run_stmt hs with
    | unlock oc pc =>
      cases oc with
      | failed => simp [pc, Pc.going] at going
      | done =>
        simp only [Proc.Wrote, pc] at wrote
        refine ⟨h.move calm ⟨rfl, rfl, rfl, rfl, rfl, rfl, rfl⟩ ?_ (by simp), ?_⟩
        · simp [txWindow, Proc.txWindow, pc]
        · exact ⟨wrote.known, wrote.pushed, wrote.sa⟩
    | _ => cases op
  enter := by
    intro b l s i m h out k ok hs op
    have calm := calm_rules.enter h.calm out trivial ok hs op
    cases Proc.run_stmt hs with
    | lock pc =>
      exact h.move calm ⟨rfl, rfl, rfl, rfl, rfl, rfl, rfl⟩ (by simp [txWindow]) (by rintro _ ⟨⟩; rfl)
    | _ => cases op
  outside := by
    intro o b l s i m _ out k _ hs keep
    cases Proc.run_stmt hs with
    | lock | unlock => cases keep
    | spin => exact k
    | call | wakeup | awake | again | refused | granted | leave => trivial
    | _ => simp_all [i2c, Pc.inside]
  others _ _ hs _ k := k.congr fun t ht => (Proc.run_stmt hs).sa ht
  out := by
    intro o b l s i m r h _ k _ hs hr
    cases Proc.run_stmt hs with
    | leave oc pc =>
      have k := k (by simp [i2c, pc, Pc.inside])
      cases hr
      cases oc with
      | failed => exact ⟨by simp [Proc.ret, Proc.retval], by simp [Proc.ret, Proc.retval]⟩
      | done =>
        simp only [Proc.Accounted, pc] at k
        exact ⟨fun _ => k.2.1, fun _ => k.2.2⟩
    | _ => cases hr

section Runs

variable {P : Type} [DecidableEq P]

theorem written_sound {g : State P} (h : Reachable orderly g) :
    i2c.Sound Written Proc.Accounted Ret.Whole g :=
  written_rules.sound disciplined
    ⟨held_initial, written_initial, fun _ _ => trivial, by simp [initial]⟩ h

/-- While a call holds `lock_bus`, what has been pushed is a prefix of its bytes. -/
theorem Proc.Wrote.prefix_pushed (h : l.Wrote s) : ∃ n, s.pushed = l.pushes (l.call.bytes.take n) := by
  have none : s.pushed = [] → ∃ n, s.pushed = l.pushes (l.call.bytes.take n) := fun e => ⟨0, by simpa [pushes] using e⟩
  have all : l.Sent s → ∃ n, s.pushed = l.pushes (l.call.bytes.take n) :=
    fun sent => ⟨l.call.bytes.length, by rw [List.take_length]; exact sent.pushed⟩
  unfold Proc.Wrote at h
  split at h
  · exact none h
  · exact none h.1
  · exact none h.1
  · exact none h.pushed
  · exact none h.1.pushed
  · exact none h.1.pushed
  · exact none h.1.pushed
  · exact ⟨_, h.pushed⟩
  · exact ⟨_, h.pushed⟩
  · exact all h.1
  · exact all h.1
  · exact all h

/-- **Writes are whole, ordered and serialised.** While a call holds `lock_bus` the
handler pushes only its bytes, in order, and a call that succeeds has pushed exactly
its bytes, to its slave. In every run, with timeouts and whatever the controller does, a
call releases `lock_bus` as often as it takes it, at most once, and `lock_bus` is free
when no call is in progress. -/
theorem bus_writes_serialised :
    (∀ g : State P, Reachable orderly g →
      (∀ l, g.owner = some l → ∃ n, g.shared.pushed = l.pushes (l.call.bytes.take n)) ∧ ∀ r ∈ g.log, r.Whole) ∧
    ∀ (c : Monitor.Cond Proc Shared Input Env) (g : State P), Reachable c g →
      (∀ r ∈ g.log, r.Balanced) ∧ ((∀ p, (g.proc p).pc = .idle) → g.lock = none) := by
  refine ⟨fun g h => ?_, fun c g h => balanced h⟩
  have sound := written_sound h
  exact ⟨fun l hl => (sound.owner.owner l hl).prefix_pushed, sound.log⟩

end Runs

instance (o : Option Proc) (s : Shared) : (e : Env) → Decidable (orderly.env o s e)
  | .ardy _ => inferInstanceAs (Decidable (_ → _))
  | .bus _ | .xrdy _ | .rrdy _ _ | .nack | .al | .enter | .isr => .isTrue trivial

instance (l : Proc) (s : Shared) (e : Env) : Decidable (orderly.bystander l s e) := .isTrue trivial

instance (l : Proc) (s : Shared) (i : Input) : Decidable (orderly.proc l s i) :=
  inferInstanceAs (Decidable (i ≠ .timeout))

/-- A write by one process, interrupted by a signal before its second byte, and a
read by another. -/
def writeAndRead : List (Action Bool) :=
  .proc false (.call (.write 0x27 0xF4 0x76)) :: goes false 11 ++ [.env (.xrdy 1)] ++ handler 8 ++
  [.proc false .signal] ++ [.env (.xrdy 1)] ++ handler 8 ++ [.env (.ardy 1)] ++ handler 6 ++ goes false 4 ++
  readUnlocked true 0xFA 0xAA 2 ++ goes true 1

theorem writeAndRead_serialised : ∃ g : State Bool, g.log.map Ret.value = [0, 0xAA] ∧
    g.log.map Ret.sent = [[(1, some 0xF4), (1, some 0x27)], [(2, some 0xFA)]] ∧
    (∀ l, g.owner = some l → ∃ n, g.shared.pushed = l.pushes (l.call.bytes.take n)) ∧
    (∀ r ∈ g.log, r.Whole) ∧ (∀ r ∈ g.log, r.Balanced) := by
  obtain ⟨g, run, values, sent⟩ := exists_reach step (i2c.ok orderly)
    (fun g => g.log.map Ret.value = [0, 0xAA] ∧
      g.log.map Ret.sent = [[(1, some 0xF4), (1, some 0x27)], [(2, some 0xFA)]])
    (initial Bool) writeAndRead (by decide +kernel)
  obtain ⟨pushed, whole⟩ := bus_writes_serialised.1 g run
  exact ⟨g, values, sent, pushed, whole, (bus_writes_serialised.2 orderly g run).1⟩

end Beaglebone.I2c
