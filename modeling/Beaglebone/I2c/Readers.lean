import Beaglebone.I2c.Isolation

/-!
# Runs without timeouts

When no wait elapses, a call leaves a phase only after the interrupts of its
START have been raised and served, so the handler never posts anything for a
START that nobody waits for: `Settled`, kept together with `Isolated` as `Calm`.
Such runs are `attended`, and the isolation theorem applies to them. What is left
is the `return g_read` of `cotti_i2c_read` after `mutex_unlock`: it returns the
call's own byte as long as the handler stores no byte between the two.
-/

namespace Beaglebone.I2c

open Machine

/-- The START whose RRDY the call waits for. -/
def Proc.byteWindow (l : Proc) : Option Nat :=
  match l.pc with
  | .waitRead => some l.rx
  | _ => none

def byteWindow (o : Option Proc) : Option Nat := o.bind Proc.byteWindow

/-- The call has not given up inside its critical section. -/
def Pc.going : Pc → Bool
  | .reinitRead .failed | .reinitStop _ .failed | .unlock .failed => false
  | _ => true

/-- No wait elapses. -/
def untimed : Monitor.Cond Proc Shared Input Env where
  proc _ _ i := i ≠ .timeout

/-- No interrupt is owed but to the owner of `lock_bus` for its current wait. -/
structure Settled (o : Option Proc) (s : Shared) : Prop where
  ardy : ∀ t, s.issued t → stopWindow o ≠ some t → (s.starts t).ardy = true
  stop : s.ardyDue = true → stopWindow o = some s.ardyBy
  rx : ∀ t, s.issued t → (s.starts t).tx = false → byteWindow o ≠ some t → (s.starts t).rx ≠ none
  read : s.rrdyDue = true → byteWindow o = some s.dataBy
  stored : s.isr.readTaken = true → byteWindow o = some s.readBy
  once : s.rrdyDue = true → s.isr.readTaken = false ∧ s.compRead = []
  posted : s.isr.readTaken = true → s.compRead = []
  latched : s.isr.Latched
  going : ∀ l, o = some l → l.pc.going = true

/-- The invariant of the runs without timeouts. -/
structure Calm (o : Option Proc) (s : Shared) : Prop where
  isolated : Isolated o s
  settled : Settled o s

theorem calm_initial : Calm none {} where
  isolated := isolated_initial
  settled := {
    ardy := fun t ht => absurd ht (by simp only [Shared.issued]; omega)
    stop := by simp [Shared.ardyDue, Isr.ardyStage, Stage.due]
    rx := fun t ht => absurd ht (by simp only [Shared.issued]; omega)
    read := by simp [Shared.rrdyDue, Isr.rrdyStage, Stage.due]
    stored := by simp [Isr.readTaken]
    once := by simp [Shared.rrdyDue, Isr.rrdyStage, Stage.due]
    posted := by simp [Isr.readTaken]
    latched := trivial
    going := by simp }

variable {o o' : Option Proc} {l : Proc} {s s' : Shared} {e : Env} {t : Nat}

theorem Proc.byteWindow_read (h : l.byteWindow = some t) : l.readWindow = some t := by
  unfold Proc.byteWindow at h
  split at h
  · next pc => simpa [Proc.readWindow, pc] using h
  · cases h

theorem byteWindow_read (h : byteWindow o = some t) : readWindow o = some t := by
  cases o with
  | none => cases h
  | some l => exact Proc.byteWindow_read h

/-- An ARDY that the handler will post is due. -/
theorem ardyDue_ahead {irq : U16} (isr : s.isr = .ardy irq) (bit : isSet irq i2cIrqArdy = true) :
    s.ardyDue = true := (ardyDue_stop (c := []) isr bit).1

/-- A byte that the handler will store is due. -/
theorem rrdyDue_ahead {irq : U16} (isr : s.isr = .rrdyData irq) (latched : s.isr.Latched) :
    s.rrdyDue = true := by
  rw [isr] at latched
  rw [Shared.rrdyDue, isr]
  exact due_ahead latched

/-- Every handler step of a settled state is attended. -/
theorem Settled.attended (h : Settled o s) : (e : Env) → Attended o s e
  | .bus _ | .xrdy _ | .rrdy _ _ | .ardy _ | .nack | .al | .enter => trivial
  | .isr => by
    show s.isr.Attended o s
    unfold Isr.Attended
    split
    · next irq isr => exact fun bit => h.stop (ardyDue_ahead isr bit)
    · next irq isr => exact byteWindow_read (h.read (rrdyDue_ahead isr h.latched))
    · next irq isr => exact byteWindow_read (h.stored (by rw [isr]; rfl))
    · trivial

/-- A step of the environment that raises no ARDY and no RRDY, and posts no
completion of `comp_read`. -/
theorem Settled.frame (h : Settled o s) (ns : s'.nstart = s.nstart) (cr : s'.compRead = s.compRead)
    (ab : s'.ardyBy = s.ardyBy) (db : s'.dataBy = s.dataBy) (rb : s'.readBy = s.readBy)
    (ardy : s'.ardyDue = true → s.ardyDue = true) (rrdy : s'.rrdyDue = true → s.rrdyDue = true)
    (taken : s'.isr.readTaken = true → s.isr.readTaken = true) (latched : s'.isr.Latched)
    (ra : ∀ t, (s'.starts t).ardy = (s.starts t).ardy)
    (rx : ∀ t, (s'.starts t).rx = (s.starts t).rx)
    (tx : ∀ t, (s'.starts t).tx = (s.starts t).tx) : Settled o s' where
  ardy t ht w := (ra t).trans (h.ardy t (by rwa [Shared.issued, ns] at ht) w)
  stop d := by rw [ab]; exact h.stop (ardy d)
  rx t ht tx' w := by
    rw [rx t]
    exact h.rx t (by rwa [Shared.issued, ns] at ht) ((tx t).symm.trans tx') w
  read d := by rw [db]; exact h.read (rrdy d)
  stored d := by rw [rb]; exact h.stored (taken d)
  once d := by
    rw [cr]
    refine ⟨Bool.eq_false_iff.2 fun r => ?_, (h.once (rrdy d)).2⟩
    exact Bool.eq_false_iff.1 (h.once (rrdy d)).1 (taken r)
  posted d := by rw [cr]; exact h.posted (taken d)
  latched := latched
  going := h.going

theorem Settled.env (h : Settled o s) (i : Isolated o s) (hs : EnvStep s e s') : Settled o s' := by
  have ardyDue : (∀ t, e ≠ .ardy t) → s'.ardyDue = true → s.ardyDue = true := hs.ardyDue
  have rrdyDue : (∀ t b, e ≠ .rrdy t b) → s'.rrdyDue = true → s.rrdyDue = true :=
    fun ne due => hs.rrdyDue ne due h.latched
  have latched := h.latched
  cases hs with
  | ardy t issued fresh =>
    have here : stopWindow o = some t := by
      by_contra w
      rw [h.ardy t issued w] at fresh
      cases fresh
    have frame := fun {β : Type} (f : Start → β) (hf : f { s.starts t with ardy := true } = f (s.starts t)) =>
      upd_field f (f := s.starts) (t := t) hf
    exact { h with
      ardy := fun u hu w => by
        rw [← h.ardy u hu w]
        exact congrArg Start.ardy (upd_other _ _ fun e => w (e ▸ here))
      stop := fun _ => here
      rx := fun u hu tx w => (frame Start.rx rfl u).trans_ne (h.rx u hu ((frame Start.tx rfl u).symm.trans tx) w)
      read := fun d => h.read (rrdyDue (by simp) d)
      once := fun d => h.once (rrdyDue (by simp) d) }
  | rrdy t b issued rx fresh =>
    have here : byteWindow o = some t := by
      by_contra w
      exact h.rx t issued rx w fresh
    -- the byte of `t` has not been stored before
    have unread : s.readBy ≠ t := fun e => by
      have := (i.byte (by rw [e]; exact Nat.one_le_iff_ne_zero.1 issued.1)).2
      rw [e, fresh] at this; cases this
    have notTaken : s.isr.readTaken = false :=
      Bool.eq_false_iff.2 fun r => unread (Option.some.inj ((h.stored r).symm.trans here))
    have noRead : s.compRead = [] := List.eq_nil_iff_forall_not_mem.2 fun u hu => by
      obtain ⟨w, by_⟩ := i.read u hu
      rw [byteWindow_read here] at w
      exact unread (by_.trans (Option.some.inj w).symm)
    have frame := fun {β : Type} (f : Start → β) (hf : f { s.starts t with rx := some b } = f (s.starts t)) =>
      upd_field f (f := s.starts) (t := t) hf
    exact { h with
      ardy := fun u hu w => (frame Start.ardy rfl u).trans (h.ardy u hu w)
      stop := fun d => h.stop (ardyDue (by simp) d)
      rx := fun u hu tx w => by
        have other : u ≠ t := fun e => w (e ▸ here)
        have same : (upd s.starts t { s.starts t with rx := some b } u) = s.starts u := upd_other _ _ other
        simp only [same] at tx ⊢
        exact h.rx u hu tx w
      read := fun _ => here
      once := fun _ => ⟨notTaken, noRead⟩ }
  | readData irq isr =>
    have was : s.rrdyDue = true := rrdyDue_ahead isr h.latched
    have isnt : ({ s with isr := .rrdyDone irq } : Shared).rrdyDue = false := by
      rw [isr] at latched
      exact due_run latched
    exact { h with
      stop := fun d => h.stop (ardyDue (by simp) d)
      read := fun d => by rw [Shared.rrdyDue] at isnt d; rw [isnt] at d; cases d
      stored := fun _ => h.read was
      once := fun d => by rw [Shared.rrdyDue] at isnt d; rw [isnt] at d; cases d
      posted := fun _ => (h.once was).2
      latched := by rw [isr] at latched; exact latched }
  | readDone irq isr =>
    have taken : s.isr.readTaken = true := by rw [isr]; rfl
    have isnt : s.rrdyDue = false :=
      Bool.eq_false_iff.2 fun d => Bool.eq_false_iff.1 (h.once d).1 taken
    have isnt' : ∀ d : ({ s with isr := .xrdyLen irq } : Shared).rrdyDue = true, False := fun d => by
      have := rrdyDue (by simp) d
      rw [isnt] at this; cases this
    exact { h with
      stop := fun d => h.stop (ardyDue (by simp) d)
      read := fun d => (isnt' d).elim
      stored := by simp [Isr.readTaken]
      once := fun d => (isnt' d).elim
      posted := by simp [Isr.readTaken]
      latched := trivial }
  | readLen irq isr bit | writeLen irq isr bit =>
    exact h.frame rfl rfl rfl rfl rfl (ardyDue (by simp)) (rrdyDue (by simp)) (by simp [Isr.readTaken])
      bit (fun _ => rfl) (fun _ => rfl) fun _ => rfl
  | xrdy t =>
    exact h.frame rfl rfl rfl rfl rfl (ardyDue (by simp)) (rrdyDue (by simp)) id latched
      (upd_field Start.ardy rfl) (upd_field Start.rx rfl) (upd_field Start.tx rfl)
  | writeData irq isr =>
    rw [isr] at latched
    exact h.frame rfl rfl rfl rfl rfl (ardyDue (by simp)) (rrdyDue (by simp)) (by simp [Isr.readTaken])
      latched (upd_field Start.ardy rfl) (upd_field Start.rx rfl) (upd_field Start.tx rfl)
  | bus | nack | al =>
    exact h.frame rfl rfl rfl rfl rfl (ardyDue (by simp)) (rrdyDue (by simp)) id latched
      (fun _ => rfl) (fun _ => rfl) fun _ => rfl
  | _ =>
    exact h.frame rfl rfl rfl rfl rfl (ardyDue (by simp)) (rrdyDue (by simp)) (by simp [Isr.readTaken])
      trivial (fun _ => rfl) (fun _ => rfl) fun _ => rfl

/-- A statement that leaves a wait only when its interrupts have been served, and
removes completions at most. -/
theorem Settled.move (h : Settled o s) (bus : SameBus s s')
    (stop : ∀ t, stopWindow o = some t →
      stopWindow o' = some t ∨ (s.starts t).ardy = true ∧ s.ardyDue = false)
    (read : ∀ t, byteWindow o = some t → byteWindow o' = some t ∧ s'.dataBy = s.dataBy ∨
      (s.starts t).rx ≠ none ∧ s.rrdyDue = false ∧ s.isr.readTaken = false)
    (cr : s.compRead = [] → s'.compRead = []) (going : ∀ l, o' = some l → l.pc.going = true) :
    Settled o' s' := by
  have ardyDue : s'.ardyDue = s.ardyDue := by
    unfold Shared.ardyDue; rw [bus.isr, bus.status]
  have rrdyDue : s'.rrdyDue = s.rrdyDue := by
    unfold Shared.rrdyDue; rw [bus.isr, bus.status]
  refine ⟨?_, ?_, ?_, ?_, ?_, ?_, ?_, bus.isr ▸ h.latched, going⟩
  · intro t ht w
    rw [bus.starts]
    by_cases w' : stopWindow o = some t
    · rcases stop t w' with stays | ⟨raised, -⟩
      · exact absurd stays w
      · exact raised
    · exact h.ardy t (by rwa [Shared.issued, bus.nstart] at ht) w'
  · intro d
    rw [ardyDue] at d
    rcases stop _ (h.stop d) with stays | ⟨-, served⟩
    · rw [bus.ardyBy]; exact stays
    · rw [served] at d; cases d
  · intro t ht tx w
    rw [bus.starts] at tx ⊢
    by_cases w' : byteWindow o = some t
    · rcases read t w' with ⟨stays, -⟩ | ⟨raised, -⟩
      · exact absurd stays w
      · exact raised
    · exact h.rx t (by rwa [Shared.issued, bus.nstart] at ht) tx w'
  · intro d
    rw [rrdyDue] at d
    rcases read _ (h.read d) with ⟨stays, by_⟩ | ⟨-, served, -⟩
    · rw [by_]; exact stays
    · rw [served] at d; cases d
  · intro d
    rw [bus.isr] at d
    rcases read _ (h.stored d) with ⟨stays, -⟩ | ⟨-, -, served⟩
    · rw [bus.readBy]; exact stays
    · rw [served] at d; cases d
  · intro d
    rw [rrdyDue] at d
    rw [bus.isr]
    exact ⟨(h.once d).1, cr (h.once d).2⟩
  · intro d
    rw [bus.isr] at d
    exact cr (h.posted d)

/-- A statement outside the waits. -/
theorem Settled.quiet (h : Settled o s) (bus : SameBus s s') (ws : stopWindow o = none)
    (wr : byteWindow o = none) (cr : s.compRead = [] → s'.compRead = [])
    (going : ∀ l, o' = some l → l.pc.going = true) : Settled o' s' :=
  h.move bus (fun _ w => by rw [ws] at w; cases w) (fun _ w => by rw [wr] at w; cases w) cr going

/-- A new START is the only one that anything is owed for. -/
theorem Settled.issue (h : Settled (some l) s) (ph : Phase) (ws : l.stopWindow = none)
    (wr : l.byteWindow = none) :
    Settled (some ((l.issued s.next ph).goto (afterStart ph))) (s.issue ph) := by
  have noArdy : s.ardyDue = false := Bool.eq_false_iff.2 fun d => by
    have w : l.stopWindow = some s.ardyBy := h.stop d
    rw [ws] at w; cases w
  have noRrdy : s.rrdyDue = false := Bool.eq_false_iff.2 fun d => by
    have w : l.byteWindow = some s.dataBy := h.read d
    rw [wr] at w; cases w
  have noTaken : s.isr.readTaken = false := Bool.eq_false_iff.2 fun d => by
    have w : l.byteWindow = some s.readBy := h.stored d
    rw [wr] at w; cases w
  have old : ∀ t, (s.issue ph).issued t → t ≠ s.next → s.issued t ∧ (s.issue ph).starts t = s.starts t :=
    fun t ht ne => ⟨⟨ht.1, Nat.le_of_lt_succ (Nat.lt_of_le_of_ne ht.2 ne)⟩, upd_other _ _ ne⟩
  refine ⟨?_, ?_, ?_, ?_, ?_, ?_, ?_, h.latched, ?_⟩
  · intro t ht w
    have ne : t ≠ s.next := fun e => w (by
      subst e
      cases ph <;> simp [stopWindow, Proc.stopWindow, Proc.goto, Proc.issued, afterStart])
    obtain ⟨was, same⟩ := old t ht ne
    rw [same]
    exact h.ardy t was (by simp [stopWindow, ws])
  · intro d
    have : s.ardyDue = true := d
    rw [noArdy] at this; cases this
  · intro t ht tx w
    have ne : t ≠ s.next := fun e => by
      subst e
      cases ph with
      | tx =>
        have flag : ((s.issue .tx).starts s.next).tx = isSet (conWord .tx) i2cBitTx :=
          congrArg Start.tx (upd_same _ _ _)
        rw [flag] at tx
        exact absurd tx (by decide)
      | rx => exact w rfl
    obtain ⟨was, same⟩ := old t ht ne
    rw [same] at tx ⊢
    exact h.rx t was tx (by simp [byteWindow, wr])
  · intro d
    have : s.rrdyDue = true := d
    rw [noRrdy] at this; cases this
  · intro d
    have : s.isr.readTaken = true := d
    rw [noTaken] at this; cases this
  · intro d
    have : s.rrdyDue = true := d
    rw [noRrdy] at this; cases this
  · exact h.posted
  · rintro _ ⟨⟩; cases ph <;> rfl

theorem Settled.own {b : Bool} {i : Input} {m : Move Proc Shared Ret} (h : Settled (some l) s)
    (iso : Isolated (some l) s) (inside : l.pc.inside = true) (untimed : i ≠ .timeout)
    (hs : Stmt b l s i m) (keep : m.op = .keep) : Settled (some m.loc) m.shared := by
  have going := h.going l rfl
  cases hs with
  | call | wakeup | spin | awake | again | refused | granted | lock | leave =>
    simp_all [Pc.inside]
  | unlock => cases keep
  | elapsedLen | elapsedRead | elapsedStop => exact absurd rfl untimed
  | setSlave pc | putReg pc | putLow pc | clearFifo pc =>
    exact h.quiet ⟨rfl, rfl, rfl, rfl, rfl, rfl, rfl⟩ (by simp [stopWindow, Proc.stopWindow, pc])
      (by simp [byteWindow, Proc.byteWindow, pc]) id (by rintro _ ⟨⟩; rfl)
  | setLen ph pc =>
    exact h.quiet ⟨rfl, rfl, rfl, rfl, rfl, rfl, rfl⟩ (by simp [stopWindow, Proc.stopWindow, pc])
      (by simp [byteWindow, Proc.byteWindow, pc]) id (by rintro _ ⟨⟩; rfl)
  | setCnt ph pc =>
    refine h.quiet ⟨rfl, rfl, rfl, rfl, rfl, rfl, rfl⟩ (by simp [stopWindow, Proc.stopWindow, pc])
      (by simp [byteWindow, Proc.byteWindow, pc]) id ?_
    rintro _ ⟨⟩
    cases ph <;> cases hc : l.call <;> simp [Proc.afterCnt, Proc.goto, hc, Pc.going]
  | start ph pc => exact h.issue ph (by simp [Proc.stopWindow, pc]) (by simp [Proc.byteWindow, pc])
  | written pc | interrupted pc =>
    refine h.move ⟨rfl, rfl, rfl, rfl, rfl, rfl, rfl⟩ (fun t w => .inl ?_) (fun t w => ?_) id (by rintro _ ⟨⟩; rfl)
    · simpa [stopWindow, Proc.stopWindow, pc, Proc.goto] using w
    · simp [byteWindow, Proc.byteWindow, pc] at w
  | takeRead t ts pc comp =>
    obtain ⟨own, by_⟩ := iso.read t (by simp [comp])
    have nonempty : s.compRead ≠ [] := by simp [comp]
    have pos : 1 ≤ l.rx := by
      have prog := iso.owner l rfl
      simp only [Proc.Progress, pc] at prog
      exact prog.2
    have rx : l.rx = t := by simpa [readWindow, Proc.readWindow, pc] using own
    refine h.move ⟨rfl, rfl, rfl, rfl, rfl, rfl, rfl⟩ (fun u w => .inl ?_) (fun u w => .inr ?_)
      (fun e => absurd e nonempty) (by rintro _ ⟨⟩; rfl)
    · simpa [stopWindow, Proc.stopWindow, pc] using w
    · have u_eq : u = s.readBy := by
        have : l.rx = u := by simpa [byteWindow, Proc.byteWindow, pc] using w
        rw [← this, rx, by_]
      refine ⟨?_, ?_, ?_⟩
      · rw [u_eq, (iso.byte (by rw [by_, ← rx]; omega)).2]; simp
      · exact Bool.eq_false_iff.2 fun d => nonempty (h.once d).2
      · exact Bool.eq_false_iff.2 fun d => nonempty (h.posted d)
  | takeStop ph t ts pc comp =>
    obtain ⟨rfl, rfl⟩ := iso.takeStop pc comp
    refine h.move ⟨rfl, rfl, rfl, rfl, rfl, rfl, rfl⟩ (fun u w => .inr ?_) (fun u w => ?_) id ?_
    · have u_eq : l.startOf ph = u := by cases ph <;> simpa [stopWindow, Proc.stopWindow, pc, Proc.startOf] using w
      refine ⟨u_eq ▸ iso.raised _ (by simp [comp]), Bool.eq_false_iff.2 fun d => ?_⟩
      have by_ : u = s.ardyBy := Option.some.inj (w.symm.trans (h.stop d))
      exact (iso.once d).1 (by rw [← by_, ← u_eq, comp]; simp)
    · cases ph <;> simp [byteWindow, Proc.byteWindow, pc] at w
    · rintro _ ⟨⟩
      cases ph <;> cases hc : l.call <;> simp [Proc.afterStop, hc, Pc.going]
  | reinitRead o pc =>
    cases o with
    | failed => simp [pc, Pc.going] at going
    | done =>
      exact h.quiet ⟨rfl, rfl, rfl, rfl, rfl, rfl, rfl⟩ (by simp [stopWindow, Proc.stopWindow, pc])
        (by simp [byteWindow, Proc.byteWindow, pc]) (fun _ => rfl) (by rintro _ ⟨⟩; rfl)
  | reinitStop ph o pc =>
    cases o with
    | failed => simp [pc, Pc.going] at going
    | done =>
      exact h.quiet ⟨rfl, rfl, rfl, rfl, rfl, rfl, rfl⟩ (by cases ph <;> simp [stopWindow, Proc.stopWindow, pc])
        (by simp [byteWindow, Proc.byteWindow, pc]) id (by rintro _ ⟨⟩; rfl)

/-- The verification conditions of the runs without timeouts. -/
theorem calm_rules : i2c.Rules untimed Calm (fun _ _ => True) fun _ => True where
  env h _ hs := ⟨h.isolated.env (h.settled.attended _) (env_step hs), h.settled.env h.isolated (env_step hs)⟩
  bystander _ _ _ _ _ _ := trivial
  own h inside ok hs keep := ⟨h.isolated.own inside (Proc.run_stmt hs) keep,
    h.settled.own h.isolated inside ok (Proc.run_stmt hs) keep⟩
  leave := by
    intro b l s i m h inside _ hs op
    cases Proc.run_stmt hs with
    | unlock oc pc =>
      refine ⟨⟨h.isolated.release pc, ?_⟩, trivial⟩
      exact h.settled.quiet ⟨rfl, rfl, rfl, rfl, rfl, rfl, rfl⟩ (by simp [stopWindow, Proc.stopWindow, pc])
        (by simp [byteWindow, Proc.byteWindow, pc]) id (by simp)
    | _ => cases op
  enter := by
    intro b l s i m h _ _ _ hs op
    cases Proc.run_stmt hs with
    | lock pc =>
      refine ⟨h.isolated.acquire trivial, ?_⟩
      exact h.settled.quiet ⟨rfl, rfl, rfl, rfl, rfl, rfl, rfl⟩ rfl rfl id (by rintro _ ⟨⟩; rfl)
    | _ => cases op
  outside _ _ _ _ _ _ := trivial
  others _ _ _ _ _ := trivial
  out _ _ _ _ _ _ := trivial

/-- No wait elapses, and no byte is stored while a read is about to return. -/
def separate : Monitor.Cond Proc Shared Input Env where
  bystander := Unread
  proc _ _ i := i ≠ .timeout

/-- A read that returns a byte returns the one received for its own receive
START. -/
def Ret.OwnByte (r : Ret) : Prop :=
  r.call.isRead = true → 0 ≤ r.value → ∃ b : U8, r.rxStart.rx = some b ∧ r.value = b.toNat

section Runs

variable {P : Type} [DecidableEq P]

theorem calm {g : State P} (h : Reachable untimed g) :
    i2c.Sound Calm (fun _ _ => True) (fun _ => True) g :=
  calm_rules.sound disciplined ⟨held_initial, calm_initial, fun _ _ => trivial, fun _ _ => trivial⟩ h

/-- A run without timeouts is attended. -/
theorem attended_of_separate {g : State P} (h : Reachable separate g) : Reachable attended g := by
  have start : i2c.Sound Calm (fun _ _ => True) (fun _ => True) (initial P) := calm .start
  refine Reach.weaken h start (fun g a g' inv ok hs => ?_) fun g a inv ok => ?_
  · refine calm_rules.step disciplined inv ?_ hs
    cases a with
    | env e => exact ⟨trivial, fun _ _ => trivial⟩
    | proc p i => exact ok
  · cases a with
    | env e => exact ⟨inv.owner.settled.attended e, ok.2⟩
    | proc p i => trivial

/-- **Readers.** Without timeouts, and when no byte is stored between a reader's
unlock and its return, every read returns its own byte. -/
theorem reads_own_byte {g : State P} (h : Reachable separate g) : ∀ r ∈ g.log, r.OwnByte := by
  intro r mem read value
  have isolated : r.Isolated := (isolation_sound (attended_of_separate h)).log r mem
  cases hc : r.call with
  | write => simp [hc, Call.isRead] at read
  | read =>
    simp only [Ret.Isolated, hc] at isolated
    exact (isolated value).2.2

end Runs

instance (o : Option Proc) (s : Shared) (e : Env) : Decidable (untimed.env o s e) := .isTrue trivial

instance (l : Proc) (s : Shared) (e : Env) : Decidable (untimed.bystander l s e) := .isTrue trivial

instance (l : Proc) (s : Shared) (i : Input) : Decidable (untimed.proc l s i) :=
  inferInstanceAs (Decidable (i ≠ .timeout))

instance (o : Option Proc) (s : Shared) (e : Env) : Decidable (separate.env o s e) := .isTrue trivial

instance (l : Proc) (s : Shared) (e : Env) : Decidable (separate.bystander l s e) :=
  inferInstanceAs (Decidable (Unread l s e))

instance (l : Proc) (s : Shared) (i : Input) : Decidable (separate.proc l s i) :=
  inferInstanceAs (Decidable (i ≠ .timeout))

/-- A whole read up to the `return` statement. -/
def readUnlocked (p : Bool) (a b : U8) (t : Nat) : List (Action Bool) :=
  readPhase1 p a t ++ readPhase2 p t ++ readByte p (t + 1) b ++ readStop (t + 1) ++ goes p 3

/-- Two readers; the first one returns in the middle of the second one's call. -/
def twoReaders : List (Action Bool) :=
  readUnlocked false 0xFA 0xAA 1 ++ readPhase1 true 0xFB 3 ++ readPhase2 true 3 ++ goes false 1 ++
  readByte true 4 0xBB ++ readStop 4 ++ goes true 4

theorem twoReaders_own_byte : ∃ g : State Bool, g.log.map Ret.value = [0xAA, 0xBB] ∧
    ∀ r ∈ g.log, r.OwnByte := by
  obtain ⟨g, run, values⟩ := exists_reach step (i2c.ok separate)
    (fun g => g.log.map Ret.value = [0xAA, 0xBB]) (initial Bool) twoReaders (by decide +kernel)
  exact ⟨g, values, reads_own_byte run⟩

/-- The first reader returns only after the second one's byte has been stored. -/
def lateReturn : List (Action Bool) :=
  readUnlocked false 0xFA 0xAA 1 ++ readPhase1 true 0xFB 3 ++ readPhase2 true 3 ++
  readByte true 4 0xBB ++ goes false 1

/-- It returns the second one's byte. -/
theorem lateReturn_other_byte : ¬ ∀ g : State Bool, Reachable untimed g → ∀ r ∈ g.log, r.OwnByte := by
  intro all
  obtain ⟨g, run, r, mem, read, value, byte⟩ := exists_reach step (i2c.ok untimed)
    (fun g => ∃ r ∈ g.log, r.call.isRead = true ∧ r.value = 0xBB ∧ r.rxStart.rx = some 0xAA)
    (initial Bool) lateReturn (by decide +kernel)
  obtain ⟨b, own, eq⟩ := all g run r mem read (by rw [value]; decide)
  rw [byte] at own
  cases own
  rw [value] at eq
  exact absurd eq (by decide)

end Beaglebone.I2c
