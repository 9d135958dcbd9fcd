import Beaglebone.Machine.Atomic
import Beaglebone.I2c.Writers

/-!
# What the calls do to a device on the bus

A slave sees the STARTs, the bytes pushed to DATA and the bytes it is asked for,
in the order of the bus and mixed by every interleaving of the calls, the handler
and the controller. `Slave` is any such device, of any state; it is put behind the
driver (`onBus`), where it answers RRDY with its own byte. To the callers the
device is an atomic object: each call performs its whole transaction at the
moment it releases `lock_bus` (`bus_calls_linearizable`), and a call that returns
-1 has not touched the device.
-/

namespace Beaglebone.I2c

open Machine

/-- A device on the bus: what a START for the word in SA does to it (`true` to
transmit), what a byte from DATA does, and the byte it gives. -/
structure Slave (δ : Type*) where
  start : δ → U32 → Bool → δ
  put : δ → Option U8 → δ
  get : δ → U8 × δ

variable {δ : Type*}

/-- The write to CON issues the START; the handler pushes bytes; a raised RRDY is
a byte received. -/
def Slave.watch (D : Slave δ) : Monitor.Watch Proc Shared Input Env δ where
  proc l s _ d := match l.pc with
    | .start ph => D.start d s.sa (isSet (conWord ph) i2cBitTx)
    | _ => d
  env s e d := match e, s.isr with
    | .rrdy _ _, _ => (D.get d).2
    | .isr, .xrdyData _ => D.put d s.writeByte
    | _, _ => d

/-- The byte received is the one that the device gives. -/
def Slave.Answers (D : Slave δ) (s : Shared × δ) : Env → Prop
  | .rrdy _ b => b = (D.get s.2).1
  | _ => True

/-- The driver with the device on its bus. -/
def onBus (D : Slave δ) : Monitor Proc (Shared × δ) Input Env Ret := i2c.watched D.watch

/-- The runs considered: no wait elapses, ARDY comes after the bytes, no byte is
stored while a read is about to return. -/
def civil : Monitor.Cond Proc Shared Input Env where
  env := orderly.env
  bystander := Unread
  proc := untimed.proc

/-- The same, with the device answering. -/
def civilOn (D : Slave δ) : Monitor.Cond Proc (Shared × δ) Input Env := civil.watched D.Answers

/-! The transactions as operations of the device -/

/-- The first phase: START and the bytes of the call. -/
def Slave.written (D : Slave δ) (d : δ) (c : Call) : δ :=
  (c.bytes.map some).foldl D.put (D.start d (c.slaveAddress.setWidth 32) true)

/-- The START of the second phase of a read. -/
def Slave.asked (D : Slave δ) (d : δ) (c : Call) : δ :=
  D.start (D.written d c) (c.slaveAddress.setWidth 32) false

/-- A whole transaction: what the call returns and the device after it. -/
def Slave.perform (D : Slave δ) (d : δ) (c : Call) : Int × δ :=
  match c with
  | .write .. => (0, D.written d c)
  | .read .. => ((D.get (D.asked d c)).1.toNat, (D.get (D.asked d c)).2)

/-- The sequential specification: a call performs its transaction, or fails and
leaves the device alone. -/
def Slave.Performs (D : Slave δ) (d : δ) (c : Call) (v : Int) (d' : δ) : Prop :=
  D.perform d c = (v, d') ∨ v = -1 ∧ d' = d

/-- What the caller sees: its calls and the values they return. -/
def Input.invocation : Input → Option Call
  | .call c => some c
  | _ => none

/-! How far the owner's transaction is -/

/-- The byte of the second phase has been received, and is the device's. -/
def Proc.Received (D : Slave δ) (d₀ : δ) (l : Proc) (s : Shared) (d : δ) : Prop :=
  ∃ b, (s.starts l.rx).rx = some b ∧ D.get (D.asked d₀ l.call) = (b, d)

/-- `d₀` is the device before the owner's call, `d` the device now. -/
def Proc.Wired (D : Slave δ) (d₀ : δ) (l : Proc) (s : Shared) (d : δ) : Prop :=
  match l.pc with
  | .waitLen | .waitStop .tx =>
    d = (s.pushed.map Prod.snd).foldl D.put (D.start d₀ (l.call.slaveAddress.setWidth 32) true)
  | .setLen .rx | .setCnt .rx | .start .rx | .reinitStop _ _ => d = D.written d₀ l.call
  | .waitRead => (s.starts l.rx).rx = none ∧ d = D.asked d₀ l.call ∨ l.Received D d₀ s d
  | .waitStop .rx | .reinitRead _ => l.Received D d₀ s d
  | .unlock _ => match l.call with
    | .write .. => d = D.written d₀ l.call
    | .read .. => l.Received D d₀ s d
  | _ => d = d₀

/-- The device, seen from the owner of `lock_bus`. -/
structure Wired (D : Slave δ) (d₀ : δ) (o : Option Proc) (s : Shared × δ) : Prop where
  free : o = none → s.2 = d₀
  owner : ∀ l, o = some l → l.Wired D d₀ s.1 s.2
  sa : ∀ l, o = some l → l.pc ≠ .setSlave → s.1.sa = l.call.slaveAddress.setWidth 32

/-- The value that a call past its unlock will return. -/
def Proc.Yields (l : Proc) (s : Shared) (v : Int) : Prop :=
  match l.call with
  | .write .. => v = 0
  | .read .. => l.rx ≤ s.nstart ∧ ∃ b : U8, (s.starts l.rx).rx = some b ∧ v = b.toNat

/-- How far a call is, for its caller. -/
def Proc.At (l : Proc) (s : Shared × δ) (st : CallStage Call Int) : Prop :=
  match l.pc with
  | .idle => st = .idle
  | .leave .failed => st = .taken l.call (-1)
  | .leave .done => ∃ v, st = .taken l.call v ∧ l.Yields s.1 v
  | _ => st = .called l.call

variable {D : Slave δ} {d d₀ : δ} {l : Proc} {s s' : Shared} {e : Env} {o : Option Proc}

/-- What holds of a process without the mutex in these runs. -/
structure Proc.Outside (l : Proc) (s : Shared) : Prop where
  accounted : l.Accounted s
  returning : l.Returning s

/-- The verification conditions of these runs, from those of the transmissions
and of the isolation. -/
theorem civil_rules : i2c.Rules civil Written Proc.Outside fun _ => True where
  env h ok hs := written_rules.env h ok hs
  bystander {o l s e s'} h ok out k by_ hs :=
    ⟨written_rules.bystander h ok out k.accounted trivial hs,
      isolation_rules.bystander h.calm.isolated (h.calm.settled.attended e) out k.returning by_ hs⟩
  own h inside ok hs op := written_rules.own h inside ok hs op
  leave h inside ok hs op := by
    obtain ⟨written, accounted⟩ := written_rules.leave h inside ok hs op
    exact ⟨written, accounted, (isolation_rules.leave h.calm.isolated inside trivial hs op).2⟩
  enter h out k ok hs op := written_rules.enter h out k.accounted ok hs op
  outside h out k ok hs op :=
    ⟨written_rules.outside h out k.accounted ok hs op,
      isolation_rules.outside h.calm.isolated out k.returning trivial hs op⟩
  others h ok hs out k :=
    ⟨written_rules.others h ok hs out k.accounted,
      isolation_rules.others h.calm.isolated trivial hs out k.returning⟩
  out _ _ _ _ _ _ := trivial

/-! What a step leaves of the picture -/

/-- A step that neither pushes nor receives a byte of the owner. -/
theorem Proc.Wired.frame (h : l.Wired D d₀ s d) (pushed : s'.pushed = s.pushed)
    (rx : (s'.starts l.rx).rx = (s.starts l.rx).rx) : l.Wired D d₀ s' d := by
  unfold Proc.Wired Proc.Received at *
  rw [pushed, rx]
  exact h

/-- A received byte is never replaced. -/
theorem EnvStep.rx (hs : EnvStep s e s') (t : Nat) :
    (s'.starts t).rx = (s.starts t).rx ∨ (s.starts t).rx = none ∧ ∃ b, e = .rrdy t b := by
  cases hs with
  | rrdy u b issued tx fresh =>
    by_cases same : t = u
    · subst same
      exact .inr ⟨fresh, b, rfl⟩
    · exact .inl (congrArg Start.rx (upd_other _ _ same))
  | xrdy u =>
    exact .inl (upd_field Start.rx (f := s.starts) (t := u) (r := { s.starts u with xrdy := (s.starts u).xrdy + 1 }) rfl t)
  | ardy u => exact .inl (upd_field Start.rx (f := s.starts) (t := u) (r := { s.starts u with ardy := true }) rfl t)
  | writeData => exact .inl (push_field Start.rx (fun _ _ => rfl) t)
  | _ => exact .inl rfl

/-- The handler is at `prv_write(g_write[g_len])` and runs it. -/
def Pushing (s : Shared) (e : Env) : Prop := e = .isr ∧ ∃ irq, s.isr = .xrdyData irq

theorem EnvStep.pushed (hs : EnvStep s e s') : s'.sa = s.sa ∧
    (Pushing s e ∧ s'.pushed = s.pushed ++ [(s.nstart, s.writeByte)] ∨
      ¬ Pushing s e ∧ s'.pushed = s.pushed) := by
  cases hs with
  | writeData irq isr => exact ⟨rfl, .inl ⟨⟨rfl, irq, isr⟩, rfl⟩⟩
  | bus | xrdy | rrdy | ardy | nack | al | enter => exact ⟨rfl, .inr ⟨by simp [Pushing], rfl⟩⟩
  | _ => exact ⟨rfl, .inr ⟨by simp [Pushing, *], rfl⟩⟩

/-- The device moves with a received byte and with a push only. -/
theorem Slave.watch_env (quiet : ∀ t b, e ≠ .rrdy t b) (noPush : ¬ Pushing s e) : D.watch.env s e d = d := by
  unfold Slave.watch
  simp only
  split
  · next t b => exact absurd rfl (quiet t b)
  · next irq isr => exact absurd ⟨rfl, irq, isr⟩ noPush
  · rfl

theorem Slave.watch_push (push : Pushing s e) : D.watch.env s e d = D.put d s.writeByte := by
  obtain ⟨rfl, irq, isr⟩ := push
  simp [Slave.watch, isr]

/-- The controller asks the device only for the byte that the owner waits for. -/
theorem Written.receiving (h : Written o s) {t : Nat} {b : U8} (hs : EnvStep s (.rrdy t b) s') :
    ∃ l, o = some l ∧ l.pc = .waitRead ∧ l.rx = t ∧ (s.starts l.rx).rx = none ∧ (s'.starts l.rx).rx = some b := by
  cases hs with
  | rrdy _ _ issued tx fresh =>
    have window : byteWindow o = some t := by
      by_contra w
      exact h.calm.settled.rx t issued tx w fresh
    obtain ⟨l, rfl, w⟩ : ∃ l, o = some l ∧ l.byteWindow = some t := Option.bind_eq_some_iff.1 window
    unfold Proc.byteWindow at w
    split at w
    · next pc =>
      obtain rfl := Option.some.inj w
      exact ⟨l, rfl, pc, rfl, fresh, congrArg Start.rx (upd_same _ _ _)⟩
    · cases w

/-- It is given bytes only in the owner's transmission. -/
theorem Written.transmitting (h : Written o s) (push : Pushing s e) :
    ∃ l, o = some l ∧ (l.pc = .waitLen ∨ l.pc = .waitStop .tx) := by
  obtain ⟨-, irq, isr⟩ := push
  obtain ⟨l, ho, -, pc⟩ := h.sending (h.taken (by rw [isr]; rfl))
  exact ⟨l, ho, pc⟩

/-- A byte received is the device's, for the owner that waits for it. -/
theorem Proc.Wired.receive {t : Nat} {b : U8} (h : l.Wired D d₀ s d) (pc : l.pc = .waitRead)
    (answer : D.Answers (s, d) (.rrdy t b)) (fresh : (s.starts l.rx).rx = none)
    (byte : (s'.starts l.rx).rx = some b) : l.Wired D d₀ s' (D.watch.env s (.rrdy t b) d) := by
  simp only [Proc.Wired, pc] at h ⊢
  rcases h with ⟨-, now⟩ | ⟨_, had, -⟩
  · refine .inr ⟨b, byte, ?_⟩
    rw [← now]
    exact Prod.ext answer.symm rfl
  · rw [fresh] at had
    cases had

/-- A byte pushed is one more of the owner's transmission. -/
theorem Proc.Wired.push (h : l.Wired D d₀ s d) (pc : l.pc = .waitLen ∨ l.pc = .waitStop .tx)
    (more : s'.pushed = s.pushed ++ [(s.nstart, s.writeByte)]) : l.Wired D d₀ s' (D.put d s.writeByte) := by
  rcases pc with pc | pc
  all_goals
    simp only [Proc.Wired, pc] at h ⊢
    rw [more, h, List.map_append, List.foldl_append]
    rfl

theorem Wired.env (h : Wired D d₀ o (s, d)) (w : Written o s) (answer : D.Answers (s, d) e)
    (hs : EnvStep s e s') : Wired D d₀ o (s', D.watch.env s e d) := by
  obtain ⟨sa, pushed⟩ := hs.pushed
  refine ⟨fun free => ?_, fun l hl => ?_, fun l hl pc => sa.trans (h.sa l hl pc)⟩
  · -- nobody owns the bus, so the device is left alone
    subst free
    refine (Slave.watch_env ?_ fun push => ?_).trans (h.free rfl)
    · rintro t b rfl
      obtain ⟨_, ⟨⟩, -⟩ := w.receiving hs
    · obtain ⟨_, ⟨⟩, -⟩ := w.transmitting push
  · have wired := h.owner l hl
    by_cases get : ∃ t b, e = .rrdy t b
    · obtain ⟨t, b, rfl⟩ := get
      obtain ⟨l', hl', pc, -, fresh, byte⟩ := w.receiving hs
      obtain rfl : l = l' := Option.some.inj (hl.symm.trans hl')
      exact wired.receive pc answer fresh byte
    · have quiet : ∀ t b, e ≠ .rrdy t b := fun t b same => get ⟨t, b, same⟩
      have rx : (s'.starts l.rx).rx = (s.starts l.rx).rx := by
        rcases hs.rx l.rx with same | ⟨-, b, rr⟩
        · exact same
        · exact absurd rr (quiet _ b)
      rcases pushed with ⟨push, more⟩ | ⟨noPush, same⟩
      · obtain ⟨l', hl', pc⟩ := w.transmitting push
        obtain rfl : l = l' := Option.some.inj (hl.symm.trans hl')
        rw [Slave.watch_push push]
        exact wired.push pc more
      · rw [Slave.watch_env quiet noPush]
        exact wired.frame same rx

theorem wired_owner (h : l.Wired D d₀ s d) (sa : s.sa = l.call.slaveAddress.setWidth 32) :
    Wired D d₀ (some l) (s, d) where
  free := by simp
  owner := by rintro _ ⟨⟩; exact h
  sa := by rintro _ ⟨⟩ _; exact sa

/-- Only START moves the device. -/
theorem Slave.watch_proc (i : Input) (noStart : ∀ ph, l.pc ≠ .start ph) : D.watch.proc l s i d = d := by
  cases pc : l.pc with
  | start ph => exact absurd pc (noStart ph)
  | _ => simp [Slave.watch, pc]

theorem Slave.watch_start (i : Input) {ph : Phase} (pc : l.pc = .start ph) :
    D.watch.proc l s i d = D.start d s.sa (isSet (conWord ph) i2cBitTx) := by
  simp [Slave.watch, pc]

/-- At the end of a transmission the device has the bytes of the call. -/
theorem Proc.Sent.device (h : l.Sent s) :
    (s.pushed.map Prod.snd).foldl D.put (D.start d₀ (l.call.slaveAddress.setWidth 32) true) =
      D.written d₀ l.call := by
  rw [h.pushed, Slave.written, Proc.pushes, List.map_map]
  rfl

/-- A completion of the read stands for a byte that the device gave. -/
theorem Proc.Wired.given {t : Nat} (h : l.Wired D d₀ s d) (w : Written (some l) s) (pc : l.pc = .waitRead)
    (comp : t ∈ s.compRead) : l.Received D d₀ s d := by
  simp only [Proc.Wired, pc] at h
  rcases h with ⟨fresh, -⟩ | received
  · obtain ⟨window, by_⟩ := w.calm.isolated.read t comp
    have rx : l.rx = t := by simpa [I2c.readWindow, Proc.readWindow, pc] using window
    have prog := w.calm.isolated.owner l rfl
    simp only [Proc.Progress, pc] at prog
    have byte := (w.calm.isolated.byte (by omega)).2
    rw [by_, ← rx, fresh] at byte
    cases byte
  · exact received

/-- The completion of the transmission comes after its bytes. -/
theorem Proc.Wired.sent {t : Nat} {ts : List Nat} (h : l.Wired D d₀ s d) (w : Written (some l) s)
    (pc : l.pc = .waitStop .tx) (comp : s.compStop = t :: ts) : d = D.written d₀ l.call := by
  have wrote := w.owner l rfl
  simp only [Proc.Wrote, pc] at wrote
  obtain ⟨rfl, -⟩ := w.calm.isolated.takeStop pc comp
  have raised : (s.starts l.tx).ardy = true := w.calm.isolated.raised _ (by simp [comp, Proc.startOf])
  obtain ⟨sent, -, -⟩ := wrote.finish (w.done _ wrote.tx raised) (w.bound l.tx).2
  simp only [Proc.Wired, pc] at h
  rwa [sent.device] at h

/-- START moves the device, with the slave address of the call. -/
theorem Wired.start {ph : Phase} (h : Wired D d₀ (some l) (s, d)) (w : Written (some l) s) (pc : l.pc = .start ph) :
    Wired D d₀ (some ((l.issued s.next ph).goto (afterStart ph)))
      (s.issue ph, D.start d s.sa (isSet (conWord ph) i2cBitTx)) := by
  have wired := h.owner l rfl
  have wrote := w.owner l rfl
  have sa := h.sa l rfl (by simp [pc])
  rw [sa]
  simp only [Proc.Wired, pc] at wired
  cases ph with
  | tx =>
    refine wired_owner ?_ sa
    simp only [Proc.Wrote, pc] at wrote
    have empty : (s.issue .tx).pushed = [] := wrote.1.pushed
    subst wired
    simp only [Proc.Wired, afterStart, goto_pc, empty]
    rfl
  | rx =>
    refine wired_owner ?_ sa
    subst wired
    refine .inl ⟨?_, rfl⟩
    exact congrArg Start.rx (upd_same _ _ _)

theorem Wired.own {b : Bool} {i : Input} {m : Move Proc Shared Ret} (h : Wired D d₀ (some l) (s, d))
    (w : Written (some l) s) (inside : l.pc.inside = true) (untimed : i ≠ .timeout) (hs : Stmt b l s i m)
    (keep : m.op = .keep) : Wired D d₀ (some m.loc) (m.shared, D.watch.proc l s i d) := by
  have wired := h.owner l rfl
  have sa := h.sa l rfl
  have wrote := w.owner l rfl
  have prog := w.calm.isolated.owner l rfl
  have going := w.calm.settled.going l rfl
  cases hs with
  | call | wakeup | spin | awake | again | refused | granted | lock | leave =>
    simp_all [Pc.inside]
  | unlock => cases keep
  | elapsedLen | elapsedRead | elapsedStop => exact absurd rfl untimed
  | setSlave pc =>
    rw [Slave.watch_proc _ (by simp [pc])]
    simp only [Proc.Wired, pc] at wired
    exact wired_owner wired rfl
  | setLen ph pc =>
    rw [Slave.watch_proc _ (by simp [pc])]
    refine wired_owner ?_ (sa (by simp [pc]))
    cases ph <;> simpa [Proc.Wired, pc, Proc.goto] using wired
  | setCnt ph pc =>
    rw [Slave.watch_proc _ (by simp [pc])]
    refine wired_owner ?_ (sa (by simp [pc]))
    cases ph with
    | tx => cases hc : l.call <;> simpa [Proc.Wired, pc, Proc.goto, Proc.afterCnt, hc] using wired
    | rx => simpa [Proc.Wired, pc, Proc.goto, Proc.afterCnt] using wired
  | putReg pc | putLow pc | clearFifo pc =>
    rw [Slave.watch_proc _ (by simp [pc])]
    refine wired_owner ?_ (sa (by simp [pc]))
    simpa [Proc.Wired, pc, Proc.goto] using wired
  | start ph pc =>
    rw [Slave.watch_start _ pc]
    exact h.start w pc
  | written pc | interrupted pc =>
    rw [Slave.watch_proc _ (by simp [pc])]
    refine wired_owner ?_ (sa (by simp [pc]))
    simpa [Proc.Wired, pc, Proc.goto] using wired
  | takeRead t ts pc comp =>
    rw [Slave.watch_proc _ (by simp [pc])]
    refine wired_owner ?_ (sa (by simp [pc]))
    exact wired.given w pc (comp ▸ List.mem_cons_self)
  | takeStop ph t ts pc comp =>
    rw [Slave.watch_proc _ (by simp [pc])]
    refine wired_owner ?_ (sa (by simp [pc]))
    cases ph with
    | tx =>
      have sent := wired.sent w pc comp
      rcases l.afterStop_tx with next | next <;> simpa only [Proc.Wired, next] using sent
    | rx =>
      simp only [Proc.Wired, pc] at wired
      exact wired
  | reinitRead oc pc =>
    rw [Slave.watch_proc _ (by simp [pc])]
    refine wired_owner ?_ (sa (by simp [pc]))
    cases oc with
    | failed => simp [pc, Pc.going] at going
    | done =>
      simp only [Proc.Progress, pc] at prog
      cases hc : l.call with
      | write => simp [hc, Call.isRead] at prog
      | read =>
        have call : (l.goto (.unlock .done)).call = .read _ _ := hc
        simp only [Proc.Wired, pc] at wired
        simp only [Proc.Wired, Proc.afterReinitRead, goto_pc, call]
        exact wired
  | reinitStop ph oc pc =>
    rw [Slave.watch_proc _ (by simp [pc])]
    refine wired_owner ?_ (sa (by simp [pc]))
    cases oc with
    | failed => simp [pc, Pc.going] at going
    | done =>
      simp only [Proc.Progress, pc] at prog
      cases hc : l.call with
      | write => simpa [Proc.Wired, pc, Proc.goto, hc] using wired
      | read => simp [hc, Call.isRead] at prog

/-- A call between its entry and its release, for its caller. -/
def Pc.running : Pc → Bool
  | .idle | .leave _ => false
  | _ => true

theorem Proc.At.running {st : CallStage Call Int} {x : Shared × δ} (at_ : l.At x st) (pc : l.pc.running = true) :
    st = .called l.call := by
  unfold Proc.At at at_
  split at at_ <;> simp_all [Pc.running]

theorem At_running {x : Shared × δ} (pc : l.pc.running = true) : l.At x (.called l.call) := by
  unfold Proc.At
  split <;> simp_all [Pc.running]

theorem running_of_inside (inside : l.pc.inside = true) : l.pc.running = true := by
  cases pc : l.pc <;> simp_all [Pc.inside, Pc.running]

theorem Proc.At.congr {st : CallStage Call Int} {x y : Shared × δ} (at_ : l.At x st)
    (keep : ∀ v, l.Yields x.1 v → l.Yields y.1 v) : l.At y st := by
  unfold Proc.At at *
  split at at_
  · exact at_
  · exact at_
  · obtain ⟨v, taken, yields⟩ := at_
    exact ⟨v, taken, keep v yields⟩
  · exact at_

/-- The value of a call past its unlock is settled. -/
theorem Proc.Yields.congr {v : Int} (h : l.Yields s v)
    (keep : ∀ t ≤ s.nstart, ∀ b, (s.starts t).rx = some b → t ≤ s'.nstart ∧ (s'.starts t).rx = some b) :
    l.Yields s' v := by
  unfold Proc.Yields at *
  split at h
  · exact h
  · obtain ⟨known, b, byte, value⟩ := h
    obtain ⟨known', byte'⟩ := keep _ known b byte
    exact ⟨known', b, byte', value⟩

theorem Proc.Yields.env {v : Int} (h : l.Yields s v) (hs : EnvStep s e s') : l.Yields s' v := by
  refine h.congr fun t known b byte => ⟨hs.sa.1 ▸ known, ?_⟩
  rcases hs.rx t with same | ⟨fresh, -⟩
  · exact same.trans byte
  · rw [fresh] at byte
    cases byte

theorem Proc.Yields.stmt {b : Bool} {l' : Proc} {i : Input} {m : Move Proc Shared Ret} {v : Int} (h : l.Yields s v)
    (hs : Stmt b l' s i m) : l.Yields m.shared v := by
  refine h.congr fun t known b byte => ?_
  cases hs with
  | start ph pc =>
    refine ⟨Nat.le_succ_of_le known, ?_⟩
    exact (congrArg Start.rx (upd_other _ _ (Nat.ne_of_lt (Nat.lt_succ_of_le known)))).trans byte
  | _ => exact ⟨known, byte⟩

/-- A complete call returns what it has settled. -/
theorem Written.returns (h : Written o s) (k : l.Complete s) {v : Int} (yields : l.Yields s v) :
    l.retval s .done = v := by
  unfold Proc.Yields at yields
  split at yields
  · next hc =>
    rw [yields]
    simp [Proc.retval, hc]
  · next hc =>
    obtain ⟨-, b, byte, value⟩ := yields
    simp only [Proc.Complete, hc] at k
    obtain ⟨pos, -, -, by_⟩ := k
    have stored := (h.calm.isolated.byte (by omega)).2
    rw [by_, byte] at stored
    simp [Proc.retval, hc, value, Option.some.inj stored]

/-- At the unlock the transaction is performed, whole. -/
theorem Proc.Wired.performs (h : l.Wired D d₀ s d) (w : Written (some l) s) (pc : l.pc = .unlock .done) :
    ∃ v, D.perform d₀ l.call = (v, d) ∧ l.Yields s v := by
  have prog := w.calm.isolated.owner l rfl
  simp only [Proc.Wired, pc] at h
  simp only [Proc.Progress, pc] at prog
  cases hc : l.call with
  | write value regAddress slaveAddress =>
    simp only [hc] at h
    refine ⟨0, ?_, by simp [Proc.Yields, hc]⟩
    rw [h]
    rfl
  | read address slaveAddress =>
    simp only [hc] at h
    obtain ⟨b, byte, get⟩ := h
    simp only [Proc.Complete, hc] at prog
    obtain ⟨pos, -, -, by_⟩ := prog
    have known := (w.calm.isolated.byte (by omega)).1
    refine ⟨b.toNat, ?_, ?_⟩
    · rw [hc] at get
      simp only [Slave.perform, get]
    · simp only [Proc.Yields, hc]
      exact ⟨by_ ▸ known, b, byte, rfl⟩

/-- **The verification conditions of an atomic device.** -/
theorem commits (D : Slave δ) : (onBus D).Commits (civilOn D) (fun o s => Written o s.1)
    (fun l s => l.Outside s.1) Input.invocation Ret.value D.Performs (Wired D) Proc.At where
  env := by
    rintro d₀ o ⟨s, d⟩ e s' w ok hs wired
    obtain ⟨s', he, rfl⟩ := Monitor.watched_env hs
    exact ⟨wired.env w ok.2 (env_step he), fun l st at_ => at_.congr fun v yields => yields.env (env_step he)⟩
  others := by
    rintro b l l' ⟨s, d⟩ i m st hs at_
    obtain ⟨n, hn, rfl⟩ := Monitor.watched_run hs
    exact at_.congr fun v yields => yields.stmt (Proc.run_stmt hn)
  own := by
    rintro d₀ b l ⟨s, d⟩ i m st w inside ok hs op wired at_
    obtain ⟨n, hn, rfl⟩ := Monitor.watched_run hs
    obtain rfl := at_.running (running_of_inside inside)
    have wired' := wired.own w inside ok (Proc.run_stmt hn) op
    have inside' : n.loc.pc.inside = true := (disciplined.keep hn op).trans inside
    have call : n.loc.call = l.call ∧ Input.invocation i = none ∧ n.out = none := by
      cases Proc.run_stmt hn with
      | call c pc => exact absurd inside (by simp [onBus, Monitor.watched, i2c, pc, Pc.inside])
      | leave oc pc => exact absurd inside (by simp [onBus, Monitor.watched, i2c, pc, Pc.inside])
      | start ph pc => cases ph <;> exact ⟨rfl, rfl, rfl⟩
      | _ => exact ⟨rfl, rfl, rfl⟩
    refine ⟨call.2.1, call.2.2, wired', ?_⟩
    rw [← call.1]
    exact At_running (running_of_inside inside')
  enter := by
    rintro d₀ b l ⟨s, d⟩ i m st w k hs op wired at_
    obtain ⟨n, hn, rfl⟩ := Monitor.watched_run hs
    cases Proc.run_stmt hn with
    | lock pc =>
      obtain rfl := at_.running (by rw [pc]; rfl)
      refine ⟨rfl, rfl, ⟨by simp, ?_, by rintro _ ⟨⟩ ne; exact absurd rfl ne⟩, rfl⟩
      rintro _ ⟨⟩
      show D.watch.proc l s .go d = d₀
      rw [Slave.watch_proc _ (by simp [pc])]
      exact wired.free rfl
    | _ => cases op
  leave := by
    rintro d₀ b l ⟨s, d⟩ i m st w inside hs op wired at_
    obtain ⟨n, hn, rfl⟩ := Monitor.watched_run hs
    obtain rfl := at_.running (running_of_inside inside)
    have going := w.calm.settled.going l rfl
    cases Proc.run_stmt hn with
    | unlock oc pc =>
      cases oc with
      | failed => simp [pc, Pc.going] at going
      | done =>
        obtain ⟨v, perform, yields⟩ := (wired.owner l rfl).performs w pc
        have still : D.watch.proc l s .go d = d := Slave.watch_proc _ (by simp [pc])
        exact ⟨rfl, rfl, l.call, v, d, rfl, .inl perform, ⟨fun _ => still, by simp, by simp⟩, v, rfl, yields⟩
    | _ => cases op
  outside := by
    rintro o b l ⟨s, d⟩ i m st w out k hs op at_
    obtain ⟨n, hn, rfl⟩ := Monitor.watched_run hs
    cases Proc.run_stmt hn with
    | call c pc =>
      simp only [Proc.At, pc] at at_
      subst at_
      exact ⟨_, rfl, .call c⟩
    | wakeup pc | spin pc | awake pc | again pc | granted pc =>
      obtain rfl := at_.running (by rw [pc]; rfl)
      refine ⟨_, ?_, .stay _⟩
      simp [Proc.At, Proc.goto, pc]
    | refused pc =>
      obtain rfl := at_.running (by rw [pc]; rfl)
      exact ⟨_, rfl, .pass fun d => .inr ⟨rfl, rfl⟩⟩
    | leave oc pc =>
      cases oc with
      | failed =>
        simp only [Proc.At, pc] at at_
        subst at_
        exact ⟨_, rfl, .ret l.call (-1)⟩
      | done =>
        simp only [Proc.At, pc] at at_
        obtain ⟨v, rfl, yields⟩ := at_
        have value : l.retval s .done = v := w.returns (k.returning pc) yields
        refine ⟨_, rfl, ?_⟩
        subst value
        exact .ret l.call _
    | lock | unlock => cases op
    | _ => simp_all [onBus, Monitor.watched, i2c, Pc.inside]

section Runs

variable {P : Type} [DecidableEq P]

/-- No call in progress, and the device as it is found. -/
def initialOn (P : Type) (d₀ : δ) : Global P Proc (Shared × δ) Ret := ⟨fun _ => {}, none, ({}, d₀), []⟩

/-- The runs of the driver with the device, and the calls and returns that they
show. -/
abbrev History (D : Slave δ) (d₀ : δ) (h : List (Event P Call Int)) (g : Global P Proc (Shared × δ) Ret) : Prop :=
  Trace (onBus D).step ((onBus D).ok (civilOn D)) ((onBus D).events Input.invocation Ret.value)
    (initialOn P d₀) h g

theorem onBus_disciplined (D : Slave δ) : (onBus D).Disciplined := by
  refine disciplined.watched fun l s i d out => Slave.watch_proc _ fun ph pc => ?_
  simp [i2c, pc, Pc.inside] at out

/-- A run of the driver with the device shows a history of the atomic device. -/
theorem History.atomic {D : Slave δ} {d₀ : δ} {h : List (Event P Call Int)}
    {g : Global P Proc (Shared × δ) Ret} (run : History D d₀ h g) :
    ∃ t, AtomicRun D.Performs d₀ h t ∧ (g.lock = none → g.shared.2 = t.obj) := by
  have sound : (onBus D).Sound (fun o s => Written o s.1) (fun l s => l.Outside s.1) (fun _ => True)
      (initialOn P d₀) :=
    ⟨by simp [Monitor.Held, initialOn, onBus, Monitor.watched, i2c, Pc.inside], written_initial,
      fun _ _ => ⟨trivial, fun done => by simp [initialOn] at done⟩, by simp [initialOn]⟩
  have link : Monitor.Linked (Wired D) Proc.At (initialOn P d₀) { obj := d₀ } :=
    ⟨⟨fun _ => rfl, by simp [initialOn, Global.owner], by simp [initialOn, Global.owner]⟩, fun _ => rfl⟩
  obtain ⟨t, atomic, linked⟩ := (commits D).atomic (onBus_disciplined D) civil_rules.watched sound link run
  exact ⟨t, atomic, fun free => linked.object.free (Monitor.owner_of_free free)⟩

/-- **The calls are linearizable.** In every run of any number of processes with any
device on the bus, the calls and their values are those of an order of whole
transactions, one after the other, that respects real time; when `lock_bus` is
free the device is exactly what that order leaves. -/
theorem bus_calls_linearizable (D : Slave δ) (d₀ : δ) {h : List (Event P Call Int)}
    {g : Global P Proc (Shared × δ) Ret} (run : History D d₀ h g) :
    ∃ ops d, Linearization D.Performs d₀ h ops d ∧ (g.lock = none → g.shared.2 = d) := by
  obtain ⟨t, atomic, free⟩ := run.atomic
  exact ⟨t.order, t.obj, atomic.linearization, free⟩

end Runs

instance (D : Slave δ) (x : Shared × δ) : (e : Env) → Decidable (D.Answers x e)
  | .rrdy _ _ => inferInstanceAs (Decidable (_ = _))
  | .bus _ | .xrdy _ | .ardy _ | .nack | .al | .enter | .isr => .isTrue trivial

instance (D : Slave δ) (o : Option Proc) (x : Shared × δ) (e : Env) : Decidable ((civilOn D).env o x e) :=
  inferInstanceAs (Decidable (orderly.env o x.1 e ∧ D.Answers x e))

instance (D : Slave δ) (l : Proc) (x : Shared × δ) (e : Env) : Decidable ((civilOn D).bystander l x e) :=
  inferInstanceAs (Decidable (Unread l x.1 e))

instance (D : Slave δ) (l : Proc) (x : Shared × δ) (i : Input) : Decidable ((civilOn D).proc l x i) :=
  inferInstanceAs (Decidable (i ≠ .timeout))

/-- A device that counts the bytes it is sent and answers `0xAA`. -/
def counter : Slave Nat where
  start d _ _ := d
  put d _ := d + 1
  get d := (0xAA, d)

theorem writeAndRead_linearizable : ∃ g : Global Bool Proc (Shared × Nat) Ret,
    g.shared.2 = 3 ∧ ∃ ops d, Linearization counter.Performs 0
      [.call false (.write 0x27 0xF4 0x76), .ret false 0, .call true (.read 0xFA 0x76), .ret true 0xAA] ops d ∧
      (g.lock = none → g.shared.2 = d) := by
  obtain ⟨g, run, bytes⟩ := exists_trace (onBus counter).step ((onBus counter).ok (civilOn counter))
    ((onBus counter).events Input.invocation Ret.value) (fun g => g.shared.2 = 3) (initialOn Bool 0)
    writeAndRead (by decide +kernel)
  have shown : shows (onBus counter).step ((onBus counter).events Input.invocation Ret.value)
      (initialOn Bool 0) writeAndRead = [.call false (.write 0x27 0xF4 0x76), .ret false 0,
        .call true (.read 0xFA 0x76), .ret true 0xAA] := by decide +kernel
  exact ⟨g, bytes, shown ▸ bus_calls_linearizable counter 0 run⟩

end Beaglebone.I2c
