import Beaglebone.I2c.System

/-!
# Isolation of transactions

A completion should be consumed only by the transaction whose START caused it.
The code resets `comp_read` and `comp_stop` only when a call ends, so an
interrupt of a START that was given up leaves its completion to the next call,
and `g_read` is returned after `lock_bus` is released. `Attended` and `Unread`
say that neither happens: the handler posts a completion or a byte only for the
START that the owner of `lock_bus` waits for, and stores no byte while a reader
is between its unlock and its return. Under them the invariant `Isolated` holds
of every interleaving of any number of calls, with timeouts and signals.
-/

namespace Beaglebone.I2c

open Machine

/-- The START whose ARDY the call waits for, or has given up and not yet reset. -/
def Proc.stopWindow (l : Proc) : Option Nat :=
  match l.pc with
  | .waitLen | .waitStop .tx | .reinitStop .tx .failed => some l.tx
  | .waitRead | .waitStop .rx | .reinitRead .failed | .reinitStop .rx .failed => some l.rx
  | _ => none

/-- The START whose RRDY the call waits for, or has seen and not yet reset. -/
def Proc.readWindow (l : Proc) : Option Nat :=
  match l.pc with
  | .waitRead | .waitStop .rx | .reinitRead _ => some l.rx
  | _ => none

def stopWindow (o : Option Proc) : Option Nat := o.bind Proc.stopWindow
def readWindow (o : Option Proc) : Option Nat := o.bind Proc.readWindow

def Call.isRead : Call → Bool
  | .read .. => true
  | .write .. => false

/-- The statement posts a completion or a byte only for the START that the owner
of `lock_bus` is waiting for. -/
def Isr.Attended (o : Option Proc) (s : Shared) : Isr → Prop
  | .ardy irq => isSet irq i2cIrqArdy = true → stopWindow o = some s.ardyBy
  | .rrdyData _ => readWindow o = some s.dataBy
  | .rrdyDone _ => readWindow o = some s.readBy
  | _ => True

/-- So does the handler, in this step of the environment. -/
def Attended (o : Option Proc) (s : Shared) : Env → Prop
  | .isr => s.isr.Attended o s
  | _ => True

/-- The statement does not store a byte while this process is about to return one. -/
def Isr.Unread (l : Proc) : Isr → Prop
  | .rrdyData _ => ¬ (l.pc = .leave .done ∧ l.call.isRead = true)
  | _ => True

def Unread (l : Proc) (s : Shared) : Env → Prop
  | .isr => s.isr.Unread l
  | _ => True

/-- Both, as a condition on the steps of a run. -/
def attended : Monitor.Cond Proc Shared Input Env where
  env := Attended
  bystander := Unread

/-- The call has consumed what its return value stands for. -/
def Proc.Complete (l : Proc) (s : Shared) : Prop :=
  match l.call with
  | .read .. => 1 ≤ l.rx ∧ l.gotRead = some l.rx ∧ l.gotStop = some l.rx ∧ s.readBy = l.rx
  | .write .. => l.gotStop = some l.tx

/-- What the owner has consumed so far, and which function it is in. -/
def Proc.Progress (l : Proc) (s : Shared) : Prop :=
  match l.pc with
  | .putReg => l.call.isRead = false
  | .setLen .rx | .setCnt .rx | .start .rx => l.call.isRead = true
  | .waitRead => l.call.isRead = true ∧ 1 ≤ l.rx
  | .waitStop .rx => l.call.isRead = true ∧ 1 ≤ l.rx ∧ l.gotRead = some l.rx ∧ s.readBy = l.rx
  | .reinitRead .done => l.call.isRead = true ∧ l.Complete s
  | .reinitStop _ .done => l.call.isRead = false ∧ l.Complete s
  | .unlock .done => l.Complete s
  | _ => True

/-- The invariant of the owner of `lock_bus` and the shared state. -/
structure Isolated (o : Option Proc) (s : Shared) : Prop where
  stop : ∀ t ∈ s.compStop, stopWindow o = some t
  read : ∀ t ∈ s.compRead, readWindow o = some t ∧ s.readBy = t
  once : s.ardyDue = true → s.ardyBy ∉ s.compStop ∧ (s.starts s.ardyBy).ardy = true
  known : s.ardyBy ≤ s.nstart
  raised : ∀ t ∈ s.compStop, (s.starts t).ardy = true
  single : s.compStop.length ≤ 1
  data : s.dataBy ≠ 0 → s.dataBy ≤ s.nstart ∧ (s.starts s.dataBy).rx = some s.data
  byte : s.readBy ≠ 0 → s.readBy ≤ s.nstart ∧ (s.starts s.readBy).rx = some s.gRead
  taken : ∀ e ∈ s.taken, e.1 = e.2
  owner : ∀ l, o = some l → l.Progress s

/-- The assertion on a process outside: a call about to return is complete. -/
def Proc.Returning (l : Proc) (s : Shared) : Prop := l.pc = .leave .done → l.Complete s

/-- A returned call consumed only its own completions, and a byte it returns is
the one received for its own receive START. -/
def Ret.Isolated (r : Ret) : Prop :=
  match r.call with
  | .read .. => 0 ≤ r.value → r.gotRead = some r.rx ∧ r.gotStop = some r.rx ∧
      ∃ b : U8, r.rxStart.rx = some b ∧ r.value = b.toNat
  | .write .. => r.value = 0 → r.gotStop = some r.tx

instance (o : Option Proc) (s : Shared) : (i : Isr) → Decidable (i.Attended o s)
  | .ardy irq => inferInstanceAs (Decidable (isSet irq i2cIrqArdy = true → _ = _))
  | .rrdyData _ | .rrdyDone _ => inferInstanceAs (Decidable (_ = _))
  | .off | .test | .rrdyLen _ | .xrdyLen _ | .xrdyData _ | .xrdyWake _ | .ack _ => .isTrue trivial

instance (o : Option Proc) (s : Shared) : (e : Env) → Decidable (Attended o s e)
  | .isr => inferInstanceAs (Decidable (s.isr.Attended o s))
  | .bus _ | .xrdy _ | .rrdy _ _ | .ardy _ | .nack | .al | .enter => .isTrue trivial

instance (l : Proc) : (i : Isr) → Decidable (i.Unread l)
  | .rrdyData _ => inferInstanceAs (Decidable (¬ (_ ∧ _)))
  | .off | .test | .ardy _ | .rrdyLen _ | .rrdyDone _ | .xrdyLen _ | .xrdyData _ | .xrdyWake _
  | .ack _ => .isTrue trivial

instance (l : Proc) (s : Shared) : (e : Env) → Decidable (Unread l s e)
  | .isr => inferInstanceAs (Decidable (s.isr.Unread l))
  | .bus _ | .xrdy _ | .rrdy _ _ | .ardy _ | .nack | .al | .enter => .isTrue trivial

theorem isolated_initial : Isolated none {} where
  stop := by simp
  read := by simp
  once := by simp [Shared.ardyDue, Isr.ardyStage, Stage.due]
  known := by simp
  raised := by simp
  single := by simp
  data := by simp
  byte := by simp
  taken := by simp
  owner := by simp

variable {o : Option Proc} {l : Proc} {s s' : Shared} {e : Env} {t : Nat} {b : U8} {i : Isr}

/-- A step of the environment that changes no completion, no byte, and none of
the records and tags that explain them keeps the invariant. -/
theorem Isolated.frame (h : Isolated o s) (cs : s'.compStop = s.compStop) (cr : s'.compRead = s.compRead)
    (ab : s'.ardyBy = s.ardyBy) (due : s'.ardyDue = true → s.ardyDue = true)
    (db : s'.dataBy = s.dataBy) (dt : s'.data = s.data) (rb : s'.readBy = s.readBy)
    (gr : s'.gRead = s.gRead) (ns : s'.nstart = s.nstart) (tk : s'.taken = s.taken)
    (ra : ∀ t, (s'.starts t).ardy = (s.starts t).ardy)
    (rx : ∀ t, (s'.starts t).rx = (s.starts t).rx) : Isolated o s' where
  stop := by rw [cs]; exact h.stop
  read := by rw [cr, rb]; exact h.read
  once := by rw [cs, ab, ra]; exact fun d => h.once (due d)
  known := by rw [ab, ns]; exact h.known
  raised := by rw [cs]; exact fun t ht => (ra t).trans (h.raised t ht)
  single := by rw [cs]; exact h.single
  data := by rw [db, dt, ns, rx]; exact h.data
  byte := by rw [rb, gr, ns, rx]; exact h.byte
  taken := by rw [tk]; exact h.taken
  owner := by
    intro l hl
    have p := h.owner l hl
    unfold Proc.Progress Proc.Complete at *
    rwa [rb]

/-- Storing the byte that the owner waits for keeps what the owner has seen. -/
theorem Proc.Progress.stored (h : l.Progress s) (w : l.readWindow = some t) :
    l.Progress { s with readBy := t, gRead := b, isr := i } := by
  obtain ⟨pc, call, _⟩ := l
  unfold Proc.Progress Proc.readWindow Proc.Complete at *
  cases pc with
  | reinitRead o => cases o <;> cases call <;> simp_all
  | waitStop ph => cases ph <;> simp_all
  | _ => simp_all

theorem Isolated.env (h : Isolated o s) (ok : Attended o s e) (hs : EnvStep s e s') :
    Isolated o s' := by
  have due : (∀ t, e ≠ .ardy t) → s'.ardyDue = true → s.ardyDue = true := hs.ardyDue
  cases hs with
  | xrdy t =>
    exact h.frame rfl rfl rfl (due (by simp)) rfl rfl rfl rfl rfl rfl
      (upd_field Start.ardy rfl) (upd_field Start.rx rfl)
  | writeData irq isr =>
    exact h.frame rfl rfl rfl (due (by simp)) rfl rfl rfl rfl rfl rfl
      (upd_field Start.ardy rfl) (upd_field Start.rx rfl)
  | rrdy t b issued tx fresh =>
    have ardy := upd_field Start.ardy (f := s.starts) (t := t) (r := { s.starts t with rx := some b }) rfl
    have ne : s.readBy ≠ 0 → s.readBy ≠ t := fun nz e => by
      have := (h.byte nz).2
      rw [e, fresh] at this; cases this
    exact { h with
      once := fun d => ⟨(h.once (due (by simp) d)).1, (ardy _).trans (h.once (due (by simp) d)).2⟩
      raised := fun u hu => (ardy u).trans (h.raised u hu)
      data := fun _ => ⟨issued.2, congrArg Start.rx (upd_same _ _ _)⟩
      byte := fun nz => ⟨(h.byte nz).1,
        (congrArg Start.rx (upd_other _ _ (ne nz))).trans (h.byte nz).2⟩ }
  | ardy t issued fresh =>
    have rx := upd_field Start.rx (f := s.starts) (t := t) (r := { s.starts t with ardy := true }) rfl
    have ne : ∀ u ∈ s.compStop, u ≠ t := fun u hu e => by
      have := h.raised u hu
      rw [e, fresh] at this; cases this
    exact { h with
      once := fun _ => ⟨fun mem => ne t mem rfl, congrArg Start.ardy (upd_same _ _ _)⟩
      known := issued.2
      raised := fun u hu => (congrArg Start.ardy (upd_other _ _ (ne u hu))).trans (h.raised u hu)
      data := fun nz => ⟨(h.data nz).1, (rx _).trans (h.data nz).2⟩
      byte := fun nz => ⟨(h.byte nz).1, (rx _).trans (h.byte nz).2⟩ }
  | stop irq isr bit =>
    obtain ⟨was, isnt⟩ := ardyDue_stop (c := s.compStop ++ [s.ardyBy]) isr bit
    have here : stopWindow o = some s.ardyBy := by
      simp only [Attended, isr, Isr.Attended] at ok; exact ok bit
    have empty : s.compStop = [] := by
      refine List.eq_nil_iff_forall_not_mem.2 fun t ht => (h.once was).1 ?_
      have : t = s.ardyBy := Option.some.inj ((h.stop t ht).symm.trans here)
      exact this ▸ ht
    exact { h with
      stop := by simpa [empty] using here
      once := fun d => by rw [isnt] at d; cases d
      raised := by simpa [empty] using (h.once was).2
      single := by simp [empty] }
  | readData irq isr =>
    have here : readWindow o = some s.dataBy := by simpa only [Attended, isr, Isr.Attended] using ok
    exact { h with
      read := fun t ht => ⟨(h.read t ht).1, Option.some.inj (here.symm.trans (h.read t ht).1)⟩
      once := fun d => h.once (due (by simp) d)
      byte := h.data
      owner := fun l hl => (h.owner l hl).stored (by subst hl; exact here) }
  | readDone irq isr =>
    have here : readWindow o = some s.readBy := by simpa only [Attended, isr, Isr.Attended] using ok
    exact { h with
      read := fun t ht => by
        rcases List.mem_append.1 ht with old | new
        · exact h.read t old
        · rw [List.mem_singleton] at new; subst new; exact ⟨here, rfl⟩
      once := fun d => h.once (due (by simp) d) }
  | _ => exact h.frame rfl rfl rfl (due (by simp)) rfl rfl rfl rfl rfl rfl (fun _ => rfl) fun _ => rfl

/-- What no statement of a call but START changes. -/
structure SameBus (s s' : Shared) : Prop where
  starts : s'.starts = s.starts
  nstart : s'.nstart = s.nstart
  status : s'.status = s.status
  isr : s'.isr = s.isr
  ardyBy : s'.ardyBy = s.ardyBy
  readBy : s'.readBy = s.readBy
  gRead : s'.gRead = s.gRead

/-- A statement keeps the invariant if it only removes completions, keeps the
windows of those it leaves, and has progressed as its new place says. -/
theorem Isolated.move {l' : Proc} (h : Isolated (some l) s) (bus : SameBus s s')
    (stop : ∀ t ∈ s'.compStop, t ∈ s.compStop ∧ l'.stopWindow = l.stopWindow)
    (read : ∀ t ∈ s'.compRead, t ∈ s.compRead ∧ l'.readWindow = l.readWindow)
    (single : s'.compStop.length ≤ s.compStop.length)
    (data : s'.dataBy ≠ 0 → s'.dataBy = s.dataBy ∧ s'.data = s.data)
    (taken : ∀ e ∈ s'.taken, e ∈ s.taken ∨ e.1 = e.2) (prog : l'.Progress s') :
    Isolated (some l') s' where
  stop t ht := (stop t ht).2.trans (h.stop t (stop t ht).1)
  read t ht := ⟨(read t ht).2.trans (h.read t (read t ht).1).1,
    bus.readBy.trans (h.read t (read t ht).1).2⟩
  once d := by
    have due : s.ardyDue = true := by
      unfold Shared.ardyDue at *
      rwa [bus.isr, bus.status] at d
    rw [bus.ardyBy, bus.starts]
    exact ⟨fun mem => (h.once due).1 (stop _ mem).1, (h.once due).2⟩
  known := by rw [bus.ardyBy, bus.nstart]; exact h.known
  raised t ht := by rw [bus.starts]; exact h.raised t (stop t ht).1
  single := Nat.le_trans single h.single
  data nz := by
    obtain ⟨by_, dat⟩ := data nz
    rw [by_, dat, bus.nstart, bus.starts]
    exact h.data (by_ ▸ nz)
  byte := by rw [bus.readBy, bus.nstart, bus.starts, bus.gRead]; exact h.byte
  taken e he := by
    rcases taken e he with old | new
    · exact h.taken e old
    · exact new
  owner := by rintro _ ⟨⟩; exact prog

/-- Outside every window no completion is left. -/
theorem Isolated.stop_empty (h : Isolated o s) (w : stopWindow o = none) : s.compStop = [] :=
  List.eq_nil_iff_forall_not_mem.2 fun t ht => by have := h.stop t ht; rw [w] at this; cases this

theorem Isolated.read_empty (h : Isolated o s) (w : readWindow o = none) : s.compRead = [] :=
  List.eq_nil_iff_forall_not_mem.2 fun t ht => by have := (h.read t ht).1; rw [w] at this; cases this

/-- A new START begins with no completion left. -/
theorem Isolated.issue {l' : Proc} (h : Isolated (some l) s) (ph : Phase)
    (ws : l.stopWindow = none) (wr : l.readWindow = none) (prog : l'.Progress (s.issue ph)) :
    Isolated (some l') (s.issue ph) := by
  have cs : s.compStop = [] := h.stop_empty ws
  have cr : s.compRead = [] := h.read_empty wr
  have old : ∀ t ≤ s.nstart, (s.issue ph).starts t = s.starts t := fun t ht =>
    upd_other _ _ (Nat.ne_of_lt (Nat.lt_succ_of_le ht))
  refine ⟨?_, ?_, ?_, ?_, ?_, ?_, ?_, ?_, h.taken, ?_⟩
  · intro t ht; exact absurd (cs ▸ ht : t ∈ []) (by simp)
  · intro t ht; exact absurd (cr ▸ ht : t ∈ []) (by simp)
  · intro d
    exact ⟨(h.once d).1, (congrArg Start.ardy (old _ h.known)).trans (h.once d).2⟩
  · exact Nat.le_succ_of_le h.known
  · intro t ht; exact absurd (cs ▸ ht : t ∈ []) (by simp)
  · exact h.single
  · intro nz
    exact ⟨Nat.le_succ_of_le (h.data nz).1, (congrArg Start.rx (old _ (h.data nz).1)).trans (h.data nz).2⟩
  · intro nz
    exact ⟨Nat.le_succ_of_le (h.byte nz).1, (congrArg Start.rx (old _ (h.byte nz).1)).trans (h.byte nz).2⟩
  · rintro _ ⟨⟩; exact prog

/-- A statement of a call that waits for nothing. -/
theorem Isolated.quiet {l' : Proc} (h : Isolated (some l) s) (ws : l.stopWindow = none)
    (wr : l.readWindow = none) (bus : SameBus s s') (cs : s'.compStop = s.compStop)
    (cr : s'.compRead = s.compRead) (data : s'.dataBy ≠ 0 → s'.dataBy = s.dataBy ∧ s'.data = s.data)
    (tk : s'.taken = s.taken) (prog : l'.Progress s') : Isolated (some l') s' := by
  have noStop : s'.compStop = [] := cs.trans (h.stop_empty ws)
  have noRead : s'.compRead = [] := cr.trans (h.read_empty wr)
  exact h.move bus (by simp [noStop]) (by simp [noRead]) (by simp [noStop]) data
    (by rw [tk]; exact fun _ he => .inl he) prog

/-- A statement that changes nothing shared and stays in the windows. -/
theorem Isolated.goto {pc' : Pc} (h : Isolated (some l) s)
    (ws : (l.goto pc').stopWindow = l.stopWindow) (wr : (l.goto pc').readWindow = l.readWindow)
    (prog : (l.goto pc').Progress s) : Isolated (some (l.goto pc')) s :=
  h.move ⟨rfl, rfl, rfl, rfl, rfl, rfl, rfl⟩ (fun _ ht => ⟨ht, ws⟩) (fun _ ht => ⟨ht, wr⟩)
    (Nat.le_refl _) (fun _ => ⟨rfl, rfl⟩) (fun _ he => .inl he) prog

/-- A wait consumes the one completion there is, and it is its own. -/
theorem Isolated.takeStop {ph : Phase} {ts : List Nat} (h : Isolated (some l) s)
    (pc : l.pc = .waitStop ph) (comp : s.compStop = t :: ts) : t = l.startOf ph ∧ ts = [] := by
  have own : l.stopWindow = some (l.startOf ph) := by
    cases ph <;> simp [Proc.stopWindow, pc, Proc.startOf]
  have here := h.stop t (by simp [comp])
  have single := h.single
  rw [comp] at single
  refine ⟨Option.some.inj (here.symm.trans own), ?_⟩
  cases ts with
  | nil => rfl
  | cons u us => simp at single

theorem Isolated.own {b : Bool} {i : Input} {m : Move Proc Shared Ret} (h : Isolated (some l) s)
    (inside : l.pc.inside = true) (hs : Stmt b l s i m) (keep : m.op = .keep) :
    Isolated (some m.loc) m.shared := by
  have prog : l.Progress s := h.owner l rfl
  cases hs with
  | call | wakeup | spin | awake | again | refused | granted | lock | leave =>
    simp_all [Pc.inside]
  | unlock => cases keep
  | setSlave pc | putReg pc =>
    exact h.quiet (by simp [Proc.stopWindow, pc]) (by simp [Proc.readWindow, pc])
      ⟨rfl, rfl, rfl, rfl, rfl, rfl, rfl⟩ rfl rfl (fun _ => ⟨rfl, rfl⟩) rfl trivial
  | putLow pc =>
    exact h.quiet (by simp [Proc.stopWindow, pc]) (by simp [Proc.readWindow, pc])
      ⟨rfl, rfl, rfl, rfl, rfl, rfl, rfl⟩ rfl rfl (fun _ => ⟨rfl, rfl⟩) rfl trivial
  | clearFifo pc =>
    exact h.quiet (by simp [Proc.stopWindow, pc]) (by simp [Proc.readWindow, pc])
      ⟨rfl, rfl, rfl, rfl, rfl, rfl, rfl⟩ rfl rfl (fun nz => absurd rfl nz) rfl trivial
  | setLen ph pc =>
    refine h.quiet (by simp [Proc.stopWindow, pc]) (by simp [Proc.readWindow, pc])
      ⟨rfl, rfl, rfl, rfl, rfl, rfl, rfl⟩ rfl rfl (fun _ => ⟨rfl, rfl⟩) rfl ?_
    cases ph with
    | tx => trivial
    | rx => simpa [Proc.Progress, pc, Proc.goto] using prog
  | setCnt ph pc =>
    refine h.quiet (by simp [Proc.stopWindow, pc]) (by simp [Proc.readWindow, pc])
      ⟨rfl, rfl, rfl, rfl, rfl, rfl, rfl⟩ rfl rfl (fun _ => ⟨rfl, rfl⟩) rfl ?_
    cases ph with
    | tx => cases hc : l.call <;> simp [Proc.afterCnt, hc, Proc.Progress, Proc.goto, Call.isRead]
    | rx =>
      show l.call.isRead = true
      simpa [Proc.Progress, pc] using prog
  | start ph pc =>
    refine h.issue ph (by simp [Proc.stopWindow, pc]) (by simp [Proc.readWindow, pc]) ?_
    cases ph with
    | tx => trivial
    | rx =>
      have read : l.call.isRead = true := by simpa [Proc.Progress, pc] using prog
      exact ⟨read, Nat.succ_pos _⟩
  | written pc | interrupted pc | elapsedLen pc =>
    exact h.goto (by simp [Proc.stopWindow, Proc.goto, pc]) (by simp [Proc.readWindow, Proc.goto, pc])
      trivial
  | elapsedRead pc =>
    exact h.goto (by simp [Proc.stopWindow, Proc.goto, pc]) (by simp [Proc.readWindow, Proc.goto, pc])
      trivial
  | elapsedStop ph pc =>
    cases ph <;> exact h.goto (by simp [Proc.stopWindow, Proc.goto, pc, afterTimeout])
      (by simp [Proc.readWindow, Proc.goto, pc, afterTimeout]) trivial
  | takeRead t ts pc comp =>
    have own := h.read t (by simp [comp])
    have rx : l.rx = t := by simpa [readWindow, Proc.readWindow, pc] using own.1
    have flow : l.call.isRead = true ∧ 1 ≤ l.rx := by simpa [Proc.Progress, pc] using prog
    refine h.move ⟨rfl, rfl, rfl, rfl, rfl, rfl, rfl⟩ ?_ ?_ (Nat.le_refl _) (fun _ => ⟨rfl, rfl⟩) ?_ ?_
    · intro u hu; exact ⟨hu, by simp [Proc.stopWindow, pc]⟩
    · intro u hu; exact ⟨comp ▸ List.mem_cons_of_mem t hu, by simp [Proc.readWindow, pc]⟩
    · intro e he
      rcases List.mem_append.1 he with old | new
      · exact .inl old
      · rw [List.mem_singleton] at new; subst new; exact .inr rx.symm
    · exact ⟨flow.1, flow.2, congrArg some rx.symm, own.2.trans rx.symm⟩
  | takeStop ph t ts pc comp =>
    obtain ⟨rfl, rfl⟩ := h.takeStop pc comp
    refine h.move ⟨rfl, rfl, rfl, rfl, rfl, rfl, rfl⟩ (by simp) ?_ (by simp) (fun _ => ⟨rfl, rfl⟩) ?_ ?_
    · intro u hu
      refine ⟨hu, ?_⟩
      cases ph with
      | tx =>
        have empty : s.compRead = [] := h.read_empty (by simp [readWindow, Proc.readWindow, pc])
        exact absurd (empty ▸ hu : u ∈ []) (by simp)
      | rx => simp [Proc.readWindow, pc, Proc.afterStop]
    · intro e he
      rcases List.mem_append.1 he with old | new
      · exact .inl old
      · rw [List.mem_singleton] at new; subst new; exact .inr rfl
    · cases ph with
      | tx => cases hc : l.call <;> simp [Proc.afterStop, hc, Proc.Progress, Proc.Complete, Call.isRead,
          Proc.startOf]
      | rx =>
        obtain ⟨read, pos, got, by_⟩ : l.call.isRead = true ∧ 1 ≤ l.rx ∧ l.gotRead = some l.rx ∧
          s.readBy = l.rx := by simpa [Proc.Progress, pc] using prog
        cases hc : l.call with
        | write => simp [hc, Call.isRead] at read
        | read => simp [Proc.afterStop, Proc.Progress, Proc.Complete, Call.isRead, Proc.startOf, *]
  | reinitRead o pc =>
    refine h.move ⟨rfl, rfl, rfl, rfl, rfl, rfl, rfl⟩ ?_ (by simp) (by simp) (fun _ => ⟨rfl, rfl⟩)
      (fun _ he => .inl he) ?_
    · intro u hu
      refine ⟨hu, ?_⟩
      cases o <;> simp [Proc.stopWindow, pc, Proc.afterReinitRead, Proc.goto]
    · cases o with
      | done =>
        have := prog
        simp only [Proc.Progress, pc] at this
        exact this.2
      | failed => trivial
  | reinitStop ph o pc =>
    have empty : s.compRead = [] := h.read_empty (by simp [readWindow, Proc.readWindow, pc])
    refine h.move ⟨rfl, rfl, rfl, rfl, rfl, rfl, rfl⟩ (by simp) (by simp [empty]) (by simp)
      (fun _ => ⟨rfl, rfl⟩) (fun _ he => .inl he) ?_
    cases o with
    | done =>
      have := prog
      simp only [Proc.Progress, pc] at this
      exact this.2
    | failed => trivial

/-- Releasing `lock_bus` leaves no completion behind. -/
theorem Isolated.release {oc : Outcome} (h : Isolated (some l) s) (pc : l.pc = .unlock oc) :
    Isolated none s where
  stop := by simp [h.stop_empty (by simp [I2c.stopWindow, Proc.stopWindow, pc])]
  read := by simp [h.read_empty (by simp [I2c.readWindow, Proc.readWindow, pc])]
  once := h.once
  known := h.known
  raised := h.raised
  single := h.single
  data := h.data
  byte := h.byte
  taken := h.taken
  owner := by simp

/-- Taking it finds none. -/
theorem Isolated.acquire (h : Isolated none s) (prog : l.Progress { s with pushed := [] }) :
    Isolated (some l) { s with pushed := [] } where
  stop := by simp [h.stop_empty rfl]
  read := by simp [h.read_empty rfl]
  once := h.once
  known := h.known
  raised := h.raised
  single := h.single
  data := h.data
  byte := h.byte
  taken := h.taken
  owner := by rintro _ ⟨⟩; exact prog

/-- No statement of a call writes `g_read`. -/
theorem Stmt.readBy {b : Bool} {i : Input} {m : Move Proc Shared Ret} (hs : Stmt b l s i m) :
    m.shared.readBy = s.readBy := by
  cases hs <;> rfl

theorem Proc.Complete.congr (h : l.Complete s) (rb : s'.readBy = s.readBy) : l.Complete s' := by
  unfold Proc.Complete at *; rwa [rb]

/-- What a complete call returns. -/
theorem Isolated.ret (h : Isolated o s) (k : l.Complete s) : (l.ret s .done).Isolated := by
  cases hc : l.call with
  | write v r a =>
    simp only [Proc.Complete, hc] at k
    simpa [Ret.Isolated, Proc.ret, hc] using fun _ : (l.retval s .done) = 0 => k
  | read a d =>
    simp only [Proc.Complete, hc] at k
    obtain ⟨pos, got, stop, by_⟩ := k
    have byte := (h.byte (by omega)).2
    rw [by_] at byte
    simp only [Ret.Isolated, Proc.ret, hc]
    exact fun _ => ⟨got, stop, s.gRead, byte, by simp [Proc.retval, hc]⟩

theorem ret_failed (l : Proc) (s : Shared) : (l.ret s .failed).Isolated := by
  unfold Ret.Isolated
  split <;> simp [Proc.ret, Proc.retval]

/-- The verification conditions of the isolation proof. -/
theorem isolation_rules : i2c.Rules attended Isolated Proc.Returning Ret.Isolated where
  env h ok hs := h.env ok (env_step hs)
  bystander := by
    intro o l s e s' h _ _ k ok hs pc
    have was := k pc
    cases hc : l.call with
    | write => simpa [Proc.Complete, hc] using was
    | read =>
      refine was.congr ?_
      cases env_step hs with
      | readData irq isr =>
        simp only [attended, Unread, isr, Isr.Unread] at ok
        exact absurd ⟨pc, by simp [hc, Call.isRead]⟩ ok
      | _ => rfl
  own h inside _ hs keep := h.own inside (Proc.run_stmt hs) keep
  leave := by
    intro b l s i m h _ _ hs op
    cases Proc.run_stmt hs with
    | unlock oc pc =>
      refine ⟨h.release pc, fun done => ?_⟩
      cases done
      have prog := h.owner l rfl
      simp only [Proc.Progress, pc] at prog
      exact prog
    | _ => cases op
  enter := by
    intro b l s i m h _ _ _ hs op
    cases Proc.run_stmt hs with
    | lock pc => exact h.acquire trivial
    | _ => cases op
  outside := by
    intro o b l s i m _ out k _ hs keep
    cases Proc.run_stmt hs with
    | call | wakeup | spin | awake | again | refused | granted | leave =>
      intro done
      simp_all [Proc.goto]
    | lock | unlock => cases keep
    | _ => simp_all [i2c, Pc.inside]
  others h _ hs _ k pc := (k pc).congr (Proc.run_stmt hs).readBy
  out := by
    intro o b l s i m r h _ k _ hs hr
    cases Proc.run_stmt hs with
    | leave oc pc =>
      cases hr
      cases oc with
      | done => exact h.ret (k (by simp [i2c, pc, Pc.inside]) pc)
      | failed => exact ret_failed l s
    | _ => cases hr

theorem isolation_sound {P : Type} [DecidableEq P] {g : State P} (h : Reachable attended g) :
    i2c.Sound Isolated Proc.Returning Ret.Isolated g :=
  isolation_rules.sound disciplined
    ⟨held_initial, isolated_initial, fun _ _ done => by simp [initial] at done, by simp [initial]⟩ h

instance (o : Option Proc) (s : Shared) (e : Env) : Decidable (attended.env o s e) :=
  inferInstanceAs (Decidable (Attended o s e))

instance (l : Proc) (s : Shared) (e : Env) : Decidable (attended.bystander l s e) :=
  inferInstanceAs (Decidable (Unread l s e))

instance (l : Proc) (s : Shared) (i : Input) : Decidable (attended.proc l s i) := .isTrue trivial

/-! Calls and runs of the handler as lists of steps -/

section Scripts

variable {P : Type}

def goes (p : P) (n : Nat) : List (Action P) := List.replicate n (.proc p .go)

/-- The handler runs `n` statements from its entry. -/
def handler (n : Nat) : List (Action P) := .env .enter :: List.replicate n (.env .isr)

/-- A read of the register `a` up to its wait for `comp_stop`, when its first
START is `t`. -/
def readPhase1 (p : P) (a : U8) (t : Nat) : List (Action P) :=
  .proc p (.call (.read a 0x76)) :: goes p 10 ++ [.env (.xrdy t)] ++ handler 8 ++ goes p 1

/-- From there to the wait for `comp_read`. -/
def readPhase2 (p : P) (t : Nat) : List (Action P) :=
  [.env (.ardy t)] ++ handler 6 ++ goes p 4

/-- From there to the wait for `comp_stop`, with `b` received. -/
def readByte (p : P) (t : Nat) (b : U8) : List (Action P) :=
  [.env (.rrdy t b)] ++ handler 8 ++ goes p 1

def readStop (t : Nat) : List (Action P) := [.env (.ardy t)] ++ handler 6

/-- The wait for `comp_read` elapses. -/
def readTimeout (p : P) : List (Action P) := .proc p .timeout :: goes p 4

end Scripts

section Runs

variable {P : Type} [DecidableEq P]

/-- **Isolation.** In every run whose handler steps are attended and unread, a
completion is consumed by the transaction whose START caused it, and every call
that returns a success or a byte has seen its own interrupts. -/
theorem transactions_isolated {g : State P} (h : Reachable attended g) :
    (∀ e ∈ g.shared.taken, e.1 = e.2) ∧ ∀ r ∈ g.log, r.Isolated :=
  ⟨(isolation_sound h).owner.taken, (isolation_sound h).log⟩

end Runs

/-- A read that times out, and one of another register that returns 7. -/
def retriedRead : List (Action Unit) :=
  readPhase1 () 0x88 1 ++ readPhase2 () 1 ++ readTimeout () ++
  readPhase1 () 0xFA 3 ++ readPhase2 () 3 ++ readByte () 4 7 ++ readStop 4 ++ goes () 4

theorem retriedRead_isolated : ∃ g : State Unit, g.log.map Ret.value = [-1, 7] ∧
    (∀ e ∈ g.shared.taken, e.1 = e.2) ∧ ∀ r ∈ g.log, r.Isolated := by
  obtain ⟨g, run, values⟩ := exists_reach step (i2c.ok attended)
    (fun g => g.log.map Ret.value = [-1, 7]) (initial Unit) retriedRead (by decide +kernel)
  exact ⟨g, values, transactions_isolated run⟩

/-- The byte of the read that timed out arrives after its cleanup. -/
def staleRead : List (Action Unit) :=
  readPhase1 () 0x88 1 ++ readPhase2 () 1 ++ readTimeout () ++
  [.env (.rrdy 2 0xAA)] ++ handler 8 ++ [.env (.ardy 2)] ++ handler 6 ++
  readPhase1 () 0xFA 3 ++ goes () 5 ++ [.env (.ardy 3)] ++ handler 6 ++ goes () 4

/-- The second read returns the byte of the first one's register: the completions
of START 2 shift every wait of the later call by one. -/
theorem staleRead_not_isolated : ¬ ∀ g : State Unit, Reach step always (initial Unit) g →
    (∀ e ∈ g.shared.taken, e.1 = e.2) ∧ ∀ r ∈ g.log, r.Isolated := by
  intro all
  obtain ⟨g, run, r, mem, read, value, none⟩ := exists_reach step always
    (fun g => ∃ r ∈ g.log, r.call.isRead = true ∧ r.value = 0xAA ∧ r.rxStart.rx = none)
    (initial Unit) staleRead (by decide +kernel)
  have isolated : r.Isolated := (all g run).2 r mem
  cases hc : r.call with
  | write => simp [hc, Call.isRead] at read
  | read =>
    simp only [Ret.Isolated, hc] at isolated
    obtain ⟨-, -, b, byte, -⟩ := isolated (by rw [value]; decide)
    rw [none] at byte
    cases byte

end Beaglebone.I2c
