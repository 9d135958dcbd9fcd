import Beaglebone.I2c.Isolation

/-!
# The count of a transfer

`g_len` counts the bytes that are left of a transfer and indexes `g_write`.
`prv_set_count` sets it, and `prv_isr` decrements it for each XRDY and RRDY. A START
raises no more of these than its count, but a call that gives up leaves its
interrupts owed: one that is raised or served after the next `prv_set_count` uses up
the count of the next transfer, and `g_len--` wraps below 0. As long as every
interrupt is raised and served before the next `prv_set_count` (`prompt`), `g_len`
covers the decrements to come (`Counted`), across any number of timeouts.
-/

namespace Beaglebone.I2c

open Machine

/-- `prv_isr` decrements a count that is not 0, and uses index 0 or 1. -/
structure IndexSafe (s : Shared) : Prop where
  rrdy : ∀ irq, s.isr = .rrdyLen irq → isSet irq i2cIrqRrdy = true → s.gLen ≠ 0
  xrdy : ∀ irq, s.isr = .xrdyLen irq → isSet irq i2cIrqXrdy = true → s.gLen ≠ 0
  index : ∀ irq, s.isr = .xrdyData irq → s.gLen = 0 ∨ s.gLen = 1

/-- The phase whose `prv_set_count` has set `g_len` and whose START is to come. -/
def Pc.preparing : Pc → Option Phase
  | .setCnt ph | .start ph => some ph
  | .putReg | .putLow | .clearFifo => some .tx
  | _ => none

def preparing (o : Option Proc) : Option Phase := o.bind fun l => l.pc.preparing

def Isr.rrdyLenStage : Isr → Stage 16
  | .off | .test => .idle
  | .ardy irq | .rrdyLen irq => .ahead irq
  | .rrdyData irq | .rrdyDone irq | .xrdyLen irq | .xrdyData irq | .xrdyWake irq | .ack irq => .past irq

/-- `g_len--` is still to run for a raised RRDY. -/
def Shared.rrdyLenDue (s : Shared) : Bool := s.isr.rrdyLenStage.due s.status i2cIrqRrdy

/-- The decrements of `g_len` still to run for raised interrupts. -/
def Shared.pending (s : Shared) : Nat := s.rrdyLenDue.toNat + s.xrdyDue.toNat

/-- The decrements of `g_len` for which a START has not raised its interrupt. -/
def Start.left (x : Start) : Nat :=
  if x.tx then x.cnt.toNat - x.xrdy else if x.rx = none then 1 else 0

def Shared.left (s : Shared) : Nat := if s.nstart = 0 then 0 else (s.starts s.nstart).left

/-- An interrupt that is raised belongs to the last `prv_set_count`. -/
def Prompt (o : Option Proc) (s : Shared) : Env → Prop
  | .xrdy t | .rrdy t _ => t = s.nstart ∧ preparing o = none
  | _ => True

/-- At `prv_set_count` every raised interrupt has been served; the handler may still
be between its `g_len--` and `g_write[g_len]` if the new count is 1. -/
def Pc.SetsServed (c : Call) (s : Shared) : Pc → Prop
  | .setLen ph => s.pending = 0 ∧ (s.isr.writeTaken = true → c.count ph = 1)
  | _ => True

/-- No interrupt is raised or served after the `prv_set_count` that follows its
START. -/
def prompt : Monitor.Cond Proc Shared Input Env where
  env := Prompt
  proc l s _ := l.pc.SetsServed l.call s

/-- `g_len` covers the decrements to come. -/
structure Counted (o : Option Proc) (s : Shared) : Prop where
  small : s.gLen.toNat ≤ 2
  taken : s.isr.writeTaken = true → s.gLen.toNat ≤ 1
  owed : preparing o = none → s.pending + s.left ≤ s.gLen.toNat
  set : ∀ l ph, o = some l → l.pc.preparing = some ph →
    s.pending = 0 ∧ s.gLen = l.call.count ph ∧ (l.pc = .setCnt ph ∨ s.cnt = l.call.count ph)

section Invariant

variable {o o' : Option Proc} {l l' : Proc} {s s' : Shared} {e : Env}

theorem toNat_le_of_imp {b c : Bool} (h : b = true → c = true) : b.toNat ≤ c.toNat := by
  cases b
  · exact Nat.zero_le _
  · rw [h rfl]

/-- A decrement for RRDY becomes due only by the interrupt being raised. -/
theorem EnvStep.rrdyLenDue (h : EnvStep s e s') (he : ∀ t b, e ≠ .rrdy t b) (due : s'.rrdyLenDue = true) :
    s.rrdyLenDue = true := by
  unfold Shared.rrdyLenDue at *
  cases h with
  | bus busy => rwa [bit_bus (by decide) singleBit_rrdy] at due
  | xrdy | ardy | nack | al =>
    exact (due_raise_other s.isr.rrdyLenStage (by decide)).symm.trans due
  | rrdy t b => exact absurd rfl (he t b)
  | latch isr any => rw [isr]; exact due_latch.symm.trans due
  | readLen irq isr bit => rw [Isr.rrdyLenStage, due_run bit] at due; cases due
  | skipRead irq isr bit => rw [isr]; rwa [Isr.rrdyLenStage, due_skip bit] at due
  | ack irq isr => rw [isr]; rwa [Isr.rrdyLenStage, due_ack singleBit_rrdy] at due
  | enter isr | finish isr | stop irq isr | skipStop irq isr | readData irq isr | readDone irq isr
  | writeLen irq isr | skipWrite irq isr | writeData irq isr | wake irq isr => rw [isr]; exact due

theorem EnvStep.pending_le (h : EnvStep s e s') (hx : ∀ t, e ≠ .xrdy t) (hr : ∀ t b, e ≠ .rrdy t b) :
    s'.pending ≤ s.pending :=
  Nat.add_le_add (toNat_le_of_imp (h.rrdyLenDue hr)) (toNat_le_of_imp (h.xrdyDue hx))

/-- Running the `g_len--` of RRDY settles one decrement. -/
theorem pending_readLen {irq : U16} (isr : s.isr = .rrdyLen irq) (bit : isSet irq i2cIrqRrdy = true) (n : U16) :
    s.pending = ({ s with isr := .rrdyData irq, gLen := n } : Shared).pending + 1 := by
  have before : s.rrdyLenDue = true := by rw [Shared.rrdyLenDue, isr]; exact due_ahead bit
  have after : ({ s with isr := .rrdyData irq, gLen := n } : Shared).rrdyLenDue = false := due_run bit
  have same : ({ s with isr := .rrdyData irq, gLen := n } : Shared).xrdyDue = s.xrdyDue := by
    rw [Shared.xrdyDue, Shared.xrdyDue, isr]
    rfl
  rw [Shared.pending, Shared.pending, before, after, same]
  simp only [Bool.toNat_true, Bool.toNat_false]
  omega

/-- Running the `g_len--` of XRDY settles one decrement. -/
theorem pending_writeLen {irq : U16} (isr : s.isr = .xrdyLen irq) (bit : isSet irq i2cIrqXrdy = true) (n : U16) :
    s.pending = ({ s with isr := .xrdyData irq, gLen := n } : Shared).pending + 1 := by
  have before : s.xrdyDue = true := by rw [Shared.xrdyDue, isr]; exact due_ahead bit
  have after : ({ s with isr := .xrdyData irq, gLen := n } : Shared).xrdyDue = false := due_run bit
  have same : ({ s with isr := .xrdyData irq, gLen := n } : Shared).rrdyLenDue = s.rrdyLenDue := by
    rw [Shared.rrdyLenDue, Shared.rrdyLenDue, isr]
    rfl
  rw [Shared.pending, Shared.pending, before, after, same]
  simp only [Bool.toNat_true, Bool.toNat_false]

theorem Counted.positive (h : Counted o s) (due : 1 ≤ s.pending) : 1 ≤ s.gLen.toNat ∧ preparing o = none := by
  have free : preparing o = none := by
    by_contra prep
    obtain ⟨ph, prep⟩ := Option.ne_none_iff_exists'.1 prep
    obtain ⟨l, rfl, pc⟩ := Option.bind_eq_some_iff.1 prep
    have zero := (h.set l ph rfl pc).1
    omega
  have owed := h.owed free
  exact ⟨by omega, free⟩

theorem Counted.indexSafe (h : Counted o s) : IndexSafe s := by
  have nonzero : 1 ≤ s.pending → s.gLen ≠ 0 := by
    intro due zero
    have positive := (h.positive due).1
    rw [zero] at positive
    exact absurd positive (by decide)
  constructor
  · intro irq isr bit
    exact nonzero (by rw [pending_readLen isr bit 0]; omega)
  · intro irq isr bit
    exact nonzero (by rw [pending_writeLen isr bit 0]; omega)
  · intro irq isr
    have le := h.taken (by rw [isr]; rfl)
    rcases Nat.le_one_iff_eq_zero_or_eq_one.1 le with zero | one
    · exact .inl (BitVec.eq_of_toNat_eq zero)
    · exact .inr (BitVec.eq_of_toNat_eq one)

/-- A step that leaves the count alone and makes nothing due. -/
theorem Counted.frame (h : Counted o s) (len : s'.gLen = s.gLen) (cnt : s'.cnt = s.cnt)
    (pending : s'.pending ≤ s.pending) (left : s'.left = s.left)
    (taken : s'.isr.writeTaken = true → s.isr.writeTaken = true) : Counted o s' where
  small := by rw [len]; exact h.small
  taken t := by rw [len]; exact h.taken (taken t)
  owed free := by
    have owed := h.owed free
    rw [len, left]
    omega
  set l ph own pc := by
    obtain ⟨zero, count, cntSet⟩ := h.set l ph own pc
    exact ⟨by omega, by rw [len]; exact count, by rw [cnt]; exact cntSet⟩

/-- A `g_len--`. -/
theorem Counted.decrement (h : Counted o s) (len : s'.gLen = s.gLen - 1) (pending : s.pending = s'.pending + 1)
    (left : s'.left = s.left) : Counted o s' := by
  obtain ⟨positive, free⟩ := h.positive (by omega)
  have one : (1 : U16).toNat = 1 := rfl
  have dec : s'.gLen.toNat = s.gLen.toNat - 1 := by
    rw [len, BitVec.toNat_sub_of_le (by rw [BitVec.le_def, one]; exact positive), one]
  have owed := h.owed free
  have small := h.small
  constructor
  · omega
  · intro _
    omega
  · intro _
    omega
  · intro l ph own pc
    subst own
    exact absurd (show preparing (some l) = some ph from pc) (by rw [free]; simp)

/-- The interrupt of one more decrement is raised. -/
theorem Counted.raise (h : Counted o s) (free : preparing o = none) (len : s'.gLen = s.gLen) (isr : s'.isr = s.isr)
    (pending : s'.pending ≤ s.pending + 1) (left : s'.left + 1 = s.left) : Counted o s' where
  small := by rw [len]; exact h.small
  taken t := by rw [len]; exact h.taken (isr ▸ t)
  owed _ := by
    have owed := h.owed free
    rw [len]
    omega
  set l ph own pc := by
    subst own
    exact absurd (show preparing (some l) = some ph from pc) (by rw [free]; simp)

theorem left_eq (nstart : s'.nstart = s.nstart) (same : (s'.starts s.nstart).left = (s.starts s.nstart).left) :
    s'.left = s.left := by
  rw [Shared.left, Shared.left, nstart, same]

theorem left_raise (issued : s.issued s.nstart) (nstart : s'.nstart = s.nstart)
    (less : (s'.starts s.nstart).left + 1 = (s.starts s.nstart).left) : s'.left + 1 = s.left := by
  have some : s.nstart ≠ 0 := Nat.ne_of_gt issued.1
  rw [Shared.left, Shared.left, nstart, if_neg some, if_neg some, less]

theorem Counted.env (h : Counted o s) (ok : Prompt o s e) (hs : EnvStep s e s') : Counted o s' := by
  have pending : (∀ t, e ≠ .xrdy t) → (∀ t b, e ≠ .rrdy t b) → s'.pending ≤ s.pending := hs.pending_le
  have other := hs.xrdyDue
  have other' := hs.rrdyLenDue
  cases hs with
  | xrdy t issued tx more =>
    obtain ⟨rfl, free⟩ := ok
    refine h.raise free rfl rfl ?_ ?_
    · have r := toNat_le_of_imp (other' (by simp))
      have x := Bool.toNat_le (Shared.xrdyDue { s with
        status := s.status ||| i2cIrqXrdy
        starts := upd s.starts s.nstart { s.starts s.nstart with xrdy := (s.starts s.nstart).xrdy + 1 } })
      unfold Shared.pending
      omega
    · refine left_raise issued rfl ?_
      simp only [upd_same, Start.left, tx, if_true]
      omega
  | rrdy t b issued rx fresh =>
    obtain ⟨rfl, free⟩ := ok
    refine h.raise free rfl rfl ?_ ?_
    · have x := toNat_le_of_imp (other (by simp))
      have r := Bool.toNat_le (Shared.rrdyLenDue { s with
        status := s.status ||| i2cIrqRrdy
        starts := upd s.starts s.nstart { s.starts s.nstart with rx := some b }
        data := b
        dataBy := s.nstart })
      unfold Shared.pending
      omega
    · refine left_raise issued rfl ?_
      simp [Start.left, rx, fresh]
  | readLen irq isr bit => exact h.decrement rfl (pending_readLen isr bit _) rfl
  | writeLen irq isr bit => exact h.decrement rfl (pending_writeLen isr bit _) rfl
  | ardy t issued fresh =>
    have same := upd_field Start.left (f := s.starts) (t := t) (r := { s.starts t with ardy := true }) rfl s.nstart
    exact h.frame rfl rfl (pending (by simp) (by simp)) (left_eq rfl same) id
  | writeData irq isr =>
    have same := upd_field Start.left (f := s.starts) (t := s.nstart)
      (r := { s.starts s.nstart with sent := (s.starts s.nstart).sent + 1 }) rfl s.nstart
    exact h.frame rfl rfl (pending (by simp) (by simp)) (left_eq rfl same) (by simp [Isr.writeTaken])
  | bus | nack | al => exact h.frame rfl rfl (pending (by simp) (by simp)) rfl id
  | enter isr | latch isr | finish isr | stop irq isr | skipStop irq isr | skipRead irq isr | readData irq isr
  | readDone irq isr | skipWrite irq isr | wake irq isr | ack irq isr =>
    exact h.frame rfl rfl (pending (by simp) (by simp)) rfl (by simp [Isr.writeTaken])

/-! The statements of the calls -/

/-- Statements that are not about the count. -/
theorem Counted.quiet (h : Counted o s) (before : preparing o = none) (after : preparing o' = none)
    (same : s'.gLen = s.gLen ∧ s'.pending = s.pending ∧ s'.left = s.left ∧ s'.isr = s.isr) : Counted o' s' := by
  obtain ⟨len, pending, left, isr⟩ := same
  constructor
  · rw [len]; exact h.small
  · rw [len, isr]; exact h.taken
  · rw [len, pending, left]; exact fun _ => h.owed before
  · intro l ph own pc
    subst own
    exact absurd (show preparing (some l) = some ph from pc) (by rw [after]; simp)

/-- A statement between `prv_set_count` and START. -/
theorem Counted.prepare {ph : Phase} (h : Counted (some l) s) (before : l.pc.preparing = some ph)
    (after : l'.pc.preparing = some ph) (call : l'.call = l.call)
    (same : s'.gLen = s.gLen ∧ s'.pending = s.pending ∧ s'.isr = s.isr) (cnt : s'.cnt = l.call.count ph) :
    Counted (some l') s' := by
  obtain ⟨len, pending, isr⟩ := same
  obtain ⟨zero, count, -⟩ := h.set l ph rfl before
  constructor
  · rw [len]; exact h.small
  · rw [len, isr]; exact h.taken
  · intro free
    rw [show preparing (some l') = some ph from after] at free
    cases free
  · intro k ph' own pc
    cases own
    rw [after, Option.some.injEq] at pc
    subst pc
    exact ⟨by rw [pending]; exact zero, by rw [len, call]; exact count, .inr (by rw [call]; exact cnt)⟩

theorem Call.count_bounds (c : Call) (ph : Phase) : 1 ≤ (c.count ph).toNat ∧ (c.count ph).toNat ≤ 2 := by
  cases c
  · exact ⟨show 1 ≤ (2 : U16).toNat by decide, show (2 : U16).toNat ≤ 2 by decide⟩
  · exact ⟨show 1 ≤ (1 : U16).toNat by decide, show (1 : U16).toNat ≤ 2 by decide⟩

/-- `prv_set_count` when every raised interrupt has been served. -/
theorem Counted.setLen {ph : Phase} (ok : l.pc.SetsServed l.call s) (pc : l.pc = .setLen ph) :
    Counted (some (l.goto (.setCnt ph))) { s with gLen := l.call.count ph } := by
  rw [pc] at ok
  obtain ⟨zero, data⟩ := ok
  constructor
  · exact (l.call.count_bounds ph).2
  · intro taken
    show (l.call.count ph).toNat ≤ 1
    rw [data taken]
    decide
  · nofun
  · intro k ph' own pc'
    cases own
    cases pc'
    exact ⟨zero, rfl, .inl rfl⟩

/-- A START owes as many decrements as `g_len` has been set to. -/
theorem Counted.start {ph : Phase} (h : Counted (some l) s) (pc : l.pc = .start ph) :
    Counted (some ((l.issued s.next ph).goto (afterStart ph))) (s.issue ph) := by
  obtain ⟨zero, count, cnt⟩ := h.set l ph rfl (by rw [pc]; rfl)
  have cnt : s.cnt = l.call.count ph := cnt.resolve_left (by rw [pc]; simp)
  have left : (s.issue ph).left ≤ (l.call.count ph).toNat := by
    have bounds := l.call.count_bounds ph
    rw [Shared.left]
    split
    · exact Nat.zero_le _
    · simp only [Shared.issue, upd_same, Start.left, cnt]
      split
      · omega
      · simp; omega
  have pending : (s.issue ph).pending = 0 := zero
  constructor
  · exact h.small
  · exact h.taken
  · intro _
    show (s.issue ph).pending + (s.issue ph).left ≤ s.gLen.toNat
    rw [pending, count, Nat.zero_add]
    exact left
  · intro k ph' own pc'
    cases own
    cases ph <;> cases pc'

theorem counted_own {b : Bool} {i : Input} {m : Move Proc Shared Ret} (h : Counted (some l) s)
    (ok : l.pc.SetsServed l.call s) (hs : Stmt b l s i m) (op : m.op = .keep) (inside : l.pc.inside = true) :
    Counted (some m.loc) m.shared := by
  have quiet : ∀ {pc : Pc}, l.pc = pc → pc.preparing = none → m.loc.pc.preparing = none →
      (m.shared.gLen = s.gLen ∧ m.shared.pending = s.pending ∧ m.shared.left = s.left ∧ m.shared.isr = s.isr) →
      Counted (some m.loc) m.shared := by
    intro pc here before after same
    exact h.quiet (by rw [preparing, Option.bind_some, here, before]) after same
  have cnt : ∀ {pc : Pc} {ph : Phase}, l.pc = pc → pc.preparing = some ph → pc ≠ .setCnt ph →
      s.cnt = l.call.count ph := by
    rintro pc ph rfl prep ne
    exact (h.set l ph rfl prep).2.2.resolve_left ne
  cases hs with
  | call c pc | wakeup pc | spin pc | awake pc | again pc | refused pc | granted pc | leave o pc =>
    rw [pc] at inside; cases inside
  | lock | unlock => cases op
  | setLen ph pc => exact Counted.setLen ok pc
  | setCnt ph pc =>
    have after : (l.afterCnt ph).preparing = some ph := by
      cases ph with
      | tx => cases hc : l.call <;> simp [Proc.afterCnt, hc, Pc.preparing]
      | rx => rfl
    exact h.prepare (by rw [pc]; rfl) after rfl ⟨rfl, rfl, rfl⟩ rfl
  | putReg pc | putLow pc | clearFifo pc =>
    exact h.prepare (by rw [pc]; rfl) rfl rfl ⟨rfl, rfl, rfl⟩ (cnt pc rfl (by simp))
  | start ph pc => exact h.start pc
  | takeStop ph t ts pc =>
    have after : (l.afterStop ph).preparing = none := by
      cases ph with
      | tx => cases hc : l.call <;> simp [Proc.afterStop, hc, Pc.preparing]
      | rx => rfl
    exact quiet pc rfl after ⟨rfl, rfl, rfl, rfl⟩
  | elapsedStop ph pc => exact quiet pc rfl (by cases ph <;> rfl) ⟨rfl, rfl, rfl, rfl⟩
  | reinitRead o pc => exact quiet pc rfl (by cases o <;> rfl) ⟨rfl, rfl, rfl, rfl⟩
  | setSlave pc | written pc | interrupted pc | elapsedLen pc | takeRead t ts pc | elapsedRead pc
  | reinitStop ph o pc => exact quiet pc rfl rfl ⟨rfl, rfl, rfl, rfl⟩

/-- `Counted` is an invariant of the prompt runs. -/
theorem counted_rules : i2c.Rules prompt Counted (fun _ _ => True) (fun _ => True) where
  env h ok hs := h.env ok (env_step hs)
  bystander _ _ _ _ _ _ := trivial
  own h inside ok hr op := counted_own h ok (Proc.run_stmt hr) op inside
  leave := by
    intro b l s i m h inside _ hr op
    refine ⟨?_, trivial⟩
    cases Proc.run_stmt hr with
    | unlock o pc => exact h.quiet (by rw [preparing, Option.bind_some, pc]; rfl) rfl ⟨rfl, rfl, rfl, rfl⟩
    | _ => cases op
  enter := by
    intro b l s i m h _ _ _ hr op
    cases Proc.run_stmt hr with
    | lock pc => exact h.quiet rfl rfl ⟨rfl, rfl, rfl, rfl⟩
    | _ => cases op
  outside _ _ _ _ _ _ := trivial
  others _ _ _ _ _ := trivial
  out _ _ _ _ _ _ := trivial

theorem counted_initial : Counted none {} where
  small := by decide
  taken := nofun
  owed _ := by decide
  set := nofun

end Invariant

section Runs

variable {P : Type} [DecidableEq P]

/-- **Index safety.** In every run in which each interrupt is raised and served before
the `prv_set_count` that follows its START, whatever calls time out, `prv_isr` never
decrements 0 and uses index 0 or 1. -/
theorem index_safe {g : State P} (h : Reachable prompt g) : IndexSafe g.shared :=
  (counted_rules.sound disciplined ⟨held_initial, counted_initial, fun _ _ => trivial, fun _ _ => trivial⟩
    h).owner.indexSafe

end Runs

instance (o : Option Proc) (s : Shared) : (e : Env) → Decidable (prompt.env o s e)
  | .xrdy t | .rrdy t _ => inferInstanceAs (Decidable (t = s.nstart ∧ preparing o = none))
  | .bus _ | .ardy _ | .nack | .al | .enter | .isr => .isTrue trivial

instance (l : Proc) (s : Shared) (e : Env) : Decidable (prompt.bystander l s e) := .isTrue trivial

instance (c : Call) (s : Shared) : (pc : Pc) → Decidable (pc.SetsServed c s)
  | .setLen _ => inferInstanceAs (Decidable (_ = _ ∧ (_ → _)))
  | .idle | .wakeup | .clkPoll | .busPoll _ | .lock | .setSlave | .setCnt _ | .putReg | .putLow | .clearFifo
  | .start _ | .waitLen | .waitRead | .waitStop _ | .reinitRead _ | .reinitStop _ _ | .unlock _
  | .leave _ => .isTrue trivial

instance (l : Proc) (s : Shared) (i : Input) : Decidable (prompt.proc l s i) :=
  inferInstanceAs (Decidable (l.pc.SetsServed l.call s))

/-- A read that times out, and the next one at its `g_write[g_len]`. -/
def servedRead : List (Action Unit) :=
  readPhase1 () 0x88 1 ++ readPhase2 () 1 ++ readTimeout () ++
  .proc () (.call (.read 0xFA 0x76)) :: goes () 10 ++ [.env (.xrdy 3)] ++ handler 4

theorem servedRead_safe : ∃ g : State Unit, g.log.map Ret.value = [-1] ∧
    g.shared.isr = .xrdyData i2cIrqXrdy ∧ IndexSafe g.shared := by
  obtain ⟨g, run, values, isr⟩ := exists_reach step (i2c.ok prompt)
    (fun g => g.log.map Ret.value = [-1] ∧ g.shared.isr = .xrdyData i2cIrqXrdy) (initial Unit) servedRead
    (by decide +kernel)
  exact ⟨g, values, isr, index_safe run⟩

/-- A write gives up before its first byte; both of its XRDYs come when a read has
set its own count. -/
def lateWrite : List (Action Unit) :=
  .proc () (.call (.write 0x27 0xF4 0x76)) :: goes () 11 ++ .proc () .timeout :: goes () 3 ++
  .proc () (.call (.read 0xFA 0x76)) :: goes () 6 ++ [.env (.xrdy 1)] ++ handler 7 ++
  [.env (.xrdy 1)] ++ List.replicate 3 (.env .isr)

/-- The second one finds `g_len` at 0. -/
theorem lateWrite_not_safe : ¬ ∀ g : State Unit, Reach step always (initial Unit) g → IndexSafe g.shared := by
  intro all
  obtain ⟨g, run, isr, zero⟩ := exists_reach step always
    (fun g => g.shared.isr = .xrdyLen i2cIrqXrdy ∧ g.shared.gLen = 0) (initial Unit) lateWrite (by decide +kernel)
  exact (all g run).xrdy _ isr (by decide) zero

end Beaglebone.I2c
