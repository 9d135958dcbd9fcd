import Beaglebone.I2c.System

/-!
# Bus errors

The handler sees NACK and AL in the words of IRQSTATUS but only logs them, and a call
infers its outcome from `g_len` and its two completions. Here one call runs alone: the
controller presents any words in any order, each while the call is at some statement,
and `prv_isr` runs to its end before the call goes on. The wait at a statement ends as
the words presented up to then have it. A bus error is reported exactly if the words
do not complete the call all the same (`errors_reported_iff`).
-/

namespace Beaglebone.I2c

open Machine

/-- NACK, or arbitration lost. -/
def BusError (w : U16) : Prop := isSet w i2cIrqNack = true ∨ isSet w i2cIrqAl = true

instance (w : U16) : Decidable (BusError w) := inferInstanceAs (Decidable (_ ∨ _))

/-- `n` statements of `prv_isr`, or fewer if it returns before. -/
def Shared.isrRun : Nat → Shared → Shared
  | 0, s => s
  | n + 1, s => match s.prvIsr with
    | some s' => isrRun n s'
    | none => s

/-- IRQSTATUS reads as `w` until it is acknowledged, and `prv_isr` runs to its return. -/
def Shared.present (s : Shared) (w : U16) : Shared := Shared.isrRun 10 { s with status := w, isr := .test }

/-- The words presented while a call is at a statement, and whether a signal is
pending when it waits for `g_len`. -/
structure Schedule where
  words : Pc → List U16
  signal : Bool := false

/-- How the statement of a call ends when all its words have been presented. -/
def Schedule.input (x : Schedule) (l : Proc) (s : Shared) : Input :=
  match l.pc with
  | .waitLen => if s.gLen = 0 then .go else if x.signal then .signal else .timeout
  | .waitRead => if s.compRead.isEmpty then .timeout else .go
  | .waitStop _ => if s.compStop.isEmpty then .timeout else .go
  | _ => .go

/-- The rest of a call, within `n` statements: what it returns, and the words
presented meanwhile. Nobody else holds `lock_bus`. -/
def Schedule.run (x : Schedule) : Nat → Proc → Shared → Option (Int × List U16)
  | 0, _, _ => none
  | n + 1, l, s => do
    let s := (x.words l.pc).foldl Shared.present s
    let m ← Proc.run false l s (x.input l s)
    match m.out with
    | some r => pure (r.value, x.words l.pc)
    | none => do
      let (v, ws) ← x.run n m.loc m.shared
      pure (v, x.words l.pc ++ ws)

/-- A whole call. -/
def Schedule.call (x : Schedule) (c : Call) (s : Shared) : Option (Int × List U16) :=
  x.run 24 { pc := .wakeup, call := c } s

/-- No completion is pending and the handler does not run. -/
def Shared.cleared (s : Shared) : Shared := { s with compRead := [], compStop := [], isr := .off }

/-- The call returns, and returns -1 if a bus error has been presented. -/
def Reported (c : Call) (s : Shared) (x : Schedule) : Prop :=
  ∃ v ws, x.call c s.cleared = some (v, ws) ∧ ((∃ w ∈ ws, BusError w) → v = -1)

/-! When the words complete a call -/

/-- The statements up to the first `prv_set_count`. -/
def Call.opening : List Pc := [.wakeup, .clkPoll, .busPoll 0, .lock, .setSlave, .setLen .tx]

/-- From there to the wait for `g_len`. -/
def Call.transmit : Call → List Pc
  | .write .. => [.setCnt .tx, .putReg, .putLow, .clearFifo, .start .tx, .waitLen]
  | .read .. => [.setCnt .tx, .putLow, .clearFifo, .start .tx, .waitLen]

/-- The second phase of a read, up to the wait for `comp_read`. -/
def Call.receive : List Pc := [.setLen .rx, .setCnt .rx, .start .rx, .waitRead]

/-- Up to the first wait for `comp_stop`. -/
def Call.phase1 (c : Call) : List Pc := Call.opening ++ c.transmit ++ [.waitStop .tx]

/-- Up to the second one. -/
def Call.phase2 (c : Call) : List Pc := c.phase1 ++ Call.receive ++ [.waitStop .rx]

/-- The statements of a call that succeeds. -/
def Call.path (c : Call) : List Pc :=
  match c with
  | .write .. => c.phase1 ++ [.reinitStop .tx .done, .unlock .done, .leave .done]
  | .read .. => c.phase2 ++ [.reinitRead .done, .unlock .done, .leave .done]

/-- The words presented at some statements. -/
def Schedule.during (x : Schedule) (pcs : List Pc) : List U16 := pcs.flatMap x.words

/-- How many of the words have a bit. -/
def occurrences (m : U16) (ws : List U16) : Nat := ws.countP (isSet · m)

/-- How often the words decrement `g_len`. -/
def decrements (ws : List U16) : Nat := occurrences i2cIrqRrdy ws + occurrences i2cIrqXrdy ws

/-- The words from `prv_set_count` to the wait take `g_len` to 0, or a signal ends the
wait. -/
def Schedule.Transmits (x : Schedule) (c : Call) : Prop :=
  decrements (x.during c.transmit) % 65536 = (c.count .tx).toNat ∨ x.signal = true

/-- Every wait of the call gets what it waits for: an ARDY for each wait for
`comp_stop`, and an RRDY for the wait for `comp_read`. -/
def Schedule.Completes (x : Schedule) (c : Call) : Prop :=
  x.Transmits c ∧ 1 ≤ occurrences i2cIrqArdy (x.during c.phase1) ∧
  match c with
  | .write .. => True
  | .read .. => 1 ≤ occurrences i2cIrqRrdy (x.during (c.phase1 ++ Call.receive)) ∧
      2 ≤ occurrences i2cIrqArdy (x.during c.phase2)

section Present

variable {s : Shared} {w : U16}

/-- A word without enabled bits has none of the bits that are served. -/
theorem enabled_of_bit (bit : isSet w i2cIrqArdy = true ∨ isSet w i2cIrqRrdy = true ∨ isSet w i2cIrqXrdy = true) :
    isSet w irqEnabled = true := by
  simp only [irqEnabled, isSet_mask_or]
  rcases bit with bit | bit | bit <;> simp [bit]

/-- What the counts are before and after some words. -/
structure Presented (ws : List U16) (s s' : Shared) : Prop where
  len : s'.gLen = s.gLen - BitVec.ofNat 16 (decrements ws)
  stops : s'.compStop.length = s.compStop.length + occurrences i2cIrqArdy ws
  reads : s'.compRead.length = s.compRead.length + occurrences i2cIrqRrdy ws

theorem decrements_append (ws vs : List U16) : decrements (ws ++ vs) = decrements ws + decrements vs := by
  simp only [decrements, occurrences, List.countP_append]
  omega

theorem occurrences_append (m : U16) (ws vs : List U16) :
    occurrences m (ws ++ vs) = occurrences m ws + occurrences m vs := List.countP_append

theorem sub_ofNat_add (len : U16) (a b : Nat) :
    len - BitVec.ofNat 16 (a + b) = len - BitVec.ofNat 16 a - BitVec.ofNat 16 b := by
  rw [BitVec.ofNat_add]
  bv_omega

/-- `prv_isr` returns after one word. -/
theorem present_off (s : Shared) (w : U16) : (s.present w).isr = .off := by
  cases enabled : isSet w irqEnabled with
  | false => simp [Shared.present, Shared.isrRun, Shared.prvIsr, enabled]
  | true =>
    cases ardy : isSet w i2cIrqArdy <;> cases rrdy : isSet w i2cIrqRrdy <;> cases xrdy : isSet w i2cIrqXrdy <;>
      simp [Shared.present, Shared.isrRun, Shared.prvIsr, enabled, ardy, rrdy, xrdy, Shared.push]

theorem present_eq (s : Shared) (w : U16) : Presented [w] s (s.present w) := by
  have split : BitVec.ofNat 16 (decrements [w]) = BitVec.ofNat 16 (occurrences i2cIrqRrdy [w]) +
      BitVec.ofNat 16 (occurrences i2cIrqXrdy [w]) := BitVec.ofNat_add ..
  cases enabled : isSet w irqEnabled with
  | false =>
    have none : ∀ m, (isSet w m = true → isSet w irqEnabled = true) → isSet w m = false := by
      intro m bit
      by_contra set
      rw [bit (by simpa using set)] at enabled
      cases enabled
    have ardy := none i2cIrqArdy fun bit => enabled_of_bit (.inl bit)
    have rrdy := none i2cIrqRrdy fun bit => enabled_of_bit (.inr (.inl bit))
    have xrdy := none i2cIrqXrdy fun bit => enabled_of_bit (.inr (.inr bit))
    constructor <;>
      simp [Shared.present, Shared.isrRun, Shared.prvIsr, enabled, decrements, occurrences, ardy, rrdy, xrdy]
  | true =>
    cases ardy : isSet w i2cIrqArdy <;> cases rrdy : isSet w i2cIrqRrdy <;> cases xrdy : isSet w i2cIrqXrdy <;>
      constructor <;>
      simp [Shared.present, Shared.isrRun, Shared.prvIsr, enabled, split, occurrences, ardy, rrdy, xrdy, Shared.push,
        BitVec.sub_sub]

theorem Presented.trans {ws vs : List U16} {s' s'' : Shared} (h : Presented ws s s') (k : Presented vs s' s'') :
    Presented (ws ++ vs) s s'' where
  len := by rw [k.len, h.len, decrements_append, sub_ofNat_add]
  stops := by rw [k.stops, h.stops, occurrences_append, Nat.add_assoc]
  reads := by rw [k.reads, h.reads, occurrences_append, Nat.add_assoc]

theorem presents_eq (ws : List U16) (s : Shared) : Presented ws s (ws.foldl Shared.present s) := by
  induction ws generalizing s with
  | nil => constructor <;> simp [decrements, occurrences]
  | cons w ws ih => exact (present_eq s w).trans (ih _)

end Present

/-! One statement of the call -/

section Follows

variable {x : Schedule} {c : Call} {l l' l'' : Proc} {s s' s'' : Shared} {pcs qs : List Pc} {pc' : Pc}

/-- The call goes through the statements `pcs` and is then at `l'` and `s'`. -/
structure Follows (x : Schedule) (pcs : List Pc) (l : Proc) (s : Shared) (l' : Proc) (s' : Shared) : Prop where
  run : ∀ n, x.run (n + pcs.length) l s = (x.run n l' s').map fun r => (r.1, x.during pcs ++ r.2)
  call : l'.call = l.call

theorem Follows.refl : Follows x [] l s l s where
  run n := by
    show x.run n l s = _
    cases x.run n l s <;> rfl
  call := rfl

theorem Follows.trans (h : Follows x pcs l s l' s') (k : Follows x qs l' s' l'' s'') :
    Follows x (pcs ++ qs) l s l'' s'' where
  run n := by
    have len : n + (pcs ++ qs).length = n + qs.length + pcs.length := by
      rw [List.length_append]
      omega
    rw [len, h.run, k.run, Option.map_map]
    congr 1
    funext r
    simp [Schedule.during]
  call := k.call.trans h.call

/-- The shared state when the words of a statement have been presented. -/
def Schedule.serve (x : Schedule) (l : Proc) (s : Shared) : Shared := (x.words l.pc).foldl Shared.present s

theorem follows_stmt {m : Move Proc Shared Ret} (run : Proc.run false l (x.serve l s) (x.input l (x.serve l s)) = some m)
    (out : m.out = none) (call : m.loc.call = l.call) : Follows x [l.pc] l s m.loc m.shared where
  run n := by
    show x.run (n + 1) l s = _
    rw [Schedule.run]
    show (Proc.run false l (x.serve l s) (x.input l (x.serve l s))).bind _ = _
    rw [run, Option.bind_some, out]
    simp only [Schedule.during, List.flatMap_cons, List.flatMap_nil, List.append_nil]
    cases x.run n m.loc m.shared <;> rfl
  call := call

/-- The statement after one that neither waits nor touches the counts. -/
def Pc.next (c : Call) : Pc → Option Pc
  | .wakeup => some .clkPoll
  | .clkPoll => some (.busPoll 0)
  | .busPoll _ => some .lock
  | .lock => some .setSlave
  | .setSlave => some (.setLen .tx)
  | .setCnt .tx => match c with
    | .write .. => some .putReg
    | .read .. => some .putLow
  | .setCnt .rx => some (.start .rx)
  | .putReg => some .putLow
  | .putLow => some .clearFifo
  | .clearFifo => some (.start .tx)
  | .start ph => some (afterStart ph)
  | _ => none

/-- The statement after one of the cleanup. -/
def Pc.cleanup : Pc → Option Pc
  | .reinitRead o => some (Proc.afterReinitRead o)
  | .reinitStop _ o => some (.unlock o)
  | .unlock o => some (.leave o)
  | _ => none

theorem next_run (next : l.pc.next l.call = some pc') : ∃ m, Proc.run false l s .go = some m ∧ m.out = none ∧
    m.loc.call = l.call ∧ m.loc.pc = pc' ∧ m.shared.gLen = s.gLen ∧ m.shared.compStop = s.compStop ∧
    m.shared.compRead = s.compRead := by
  obtain ⟨pc, call⟩ := l
  cases pc with
  | busPoll i =>
    cases next
    refine ⟨_, by simp only [Proc.run, Sample.busy_eq, pollNext]; rfl, rfl, rfl, rfl, rfl, rfl, rfl⟩
  | setCnt ph => cases ph <;> cases call <;> cases next <;> exact ⟨_, rfl, rfl, rfl, rfl, rfl, rfl, rfl⟩
  | start ph => cases ph <;> cases next <;> exact ⟨_, rfl, rfl, rfl, rfl, rfl, rfl, rfl⟩
  | _ => cases next <;> exact ⟨_, rfl, rfl, rfl, rfl, rfl, rfl, rfl⟩

theorem input_next {pc : Pc} (here : l.pc = pc) (next : pc.next c = some pc') : x.input l s = .go := by
  rw [Schedule.input, here]
  cases pc <;> first | rfl | cases next

/-- One plain statement. -/
theorem next_follows (next : l.pc.next l.call = some pc') :
    ∃ l' s', Follows x [l.pc] l s l' s' ∧ l'.pc = pc' ∧ Presented (x.during [l.pc]) s s' := by
  obtain ⟨m, run, out, call, pc, len, stops, reads⟩ := next_run (s := x.serve l s) next
  have words : x.during [l.pc] = x.words l.pc := by simp [Schedule.during]
  have presented : Presented (x.words l.pc) s (x.serve l s) := presents_eq _ s
  refine ⟨m.loc, m.shared, follows_stmt ?_ out call, pc, ?_⟩
  · rw [input_next rfl next]
    exact run
  · rw [words]
    constructor
    · rw [len]; exact presented.len
    · rw [stops]; exact presented.stops
    · rw [reads]; exact presented.reads

/-- A row of plain statements, and the statement after it. -/
inductive Walk (c : Call) : Pc → List Pc → Pc → Prop where
  | nil {pc : Pc} : Walk c pc [] pc
  | cons {pc q pc' : Pc} {pcs : List Pc} (next : pc.next c = some q) : Walk c q pcs pc' → Walk c pc (pc :: pcs) pc'

theorem Walk.follows {pc : Pc} (w : Walk c pc pcs pc') (call : l.call = c) (here : l.pc = pc) :
    ∃ l' s', Follows x pcs l s l' s' ∧ l'.pc = pc' ∧ Presented (x.during pcs) s s' := by
  induction w generalizing l s with
  | nil => exact ⟨l, s, Follows.refl, here, presents_eq [] s⟩
  | cons next _ ih =>
    subst call here
    obtain ⟨l', s', follows, pc, presented⟩ := next_follows (x := x) (s := s) next
    obtain ⟨l'', s'', rest, pc', presented'⟩ := ih (l := l') (s := s') follows.call pc
    refine ⟨l'', s'', follows.trans rest, pc', ?_⟩
    simpa [Schedule.during] using presented.trans presented'

/-- One statement of the cleanup. -/
theorem cleanup_follows (next : l.pc.cleanup = some pc') : ∃ l' s', Follows x [l.pc] l s l' s' ∧ l'.pc = pc' := by
  have run : ∃ m, Proc.run false l (x.serve l s) (x.input l (x.serve l s)) = some m ∧ m.out = none ∧
      m.loc.call = l.call ∧ m.loc.pc = pc' := by
    generalize x.serve l s = t
    obtain ⟨pc, call⟩ := l
    cases pc with
    | reinitRead | reinitStop | unlock => cases next; exact ⟨_, rfl, rfl, rfl, rfl⟩
    | _ => cases next
  obtain ⟨m, run, out, call, pc⟩ := run
  exact ⟨m.loc, m.shared, follows_stmt run out call, pc⟩

/-- The last statement. -/
theorem leave_returns {o : Outcome} (pc : l.pc = .leave o) (n : Nat) :
    x.run (n + 1) l s = some (l.retval (x.serve l s) o, x.during [l.pc]) := by
  obtain ⟨_, call⟩ := l
  cases pc
  simp [Schedule.run, Schedule.input, Schedule.during, Schedule.serve, Proc.run, Proc.ret]

theorem setLen_follows {ph : Phase} (here : l.pc = .setLen ph) :
    ∃ l' s', Follows x [.setLen ph] l s l' s' ∧ l'.pc = .setCnt ph ∧ s'.gLen = l.call.count ph ∧
      s'.compStop = (x.serve l s).compStop ∧ s'.compRead = (x.serve l s).compRead := by
  have go : x.input l (x.serve l s) = .go := by rw [Schedule.input, here]
  have run : ∀ t, Proc.run false l t .go =
      some { loc := l.goto (.setCnt ph), shared := { t with gLen := l.call.count ph } } := by
    intro t
    have clamp : (if l.call.count ph ≤ 2 then l.call.count ph else 2) = l.call.count ph :=
      if_pos (l.call.count_le ph)
    rw [← clamp]
    obtain ⟨_, call⟩ := l
    cases here
    rfl
  have follows := follows_stmt ((congrArg _ go).trans (run (x.serve l s))) rfl rfl
  rw [here] at follows
  exact ⟨_, _, follows, rfl, rfl, rfl, rfl⟩

theorem run_waitLen (here : l.pc = .waitLen) :
    (s.gLen = 0 → Proc.run false l s .go = some { loc := l.goto (.waitStop .tx), shared := s }) ∧
    (s.gLen ≠ 0 → Proc.run false l s .signal = some { loc := l.goto (.waitStop .tx), shared := s } ∧
      Proc.run false l s .timeout = some { loc := l.goto (afterTimeout .tx), shared := s }) := by
  obtain ⟨_, call⟩ := l
  cases here
  exact ⟨fun len => if_pos len, fun len => ⟨if_neg len, if_neg len⟩⟩

/-- The wait for `g_len`. -/
theorem waitLen_follows (here : l.pc = .waitLen) : ∃ l', Follows x [.waitLen] l s l' (x.serve l s) ∧
    l'.pc = if (x.serve l s).gLen = 0 ∨ x.signal = true then .waitStop .tx else afterTimeout .tx := by
  have step : ∀ i pc, x.input l (x.serve l s) = i →
      Proc.run false l (x.serve l s) i = some { loc := l.goto pc, shared := x.serve l s } →
      Follows x [.waitLen] l s (l.goto pc) (x.serve l s) := by
    intro i pc input run
    have follows := follows_stmt ((congrArg _ input).trans run) rfl rfl
    rwa [here] at follows
  have input : x.input l (x.serve l s) =
      if (x.serve l s).gLen = 0 then .go else if x.signal then .signal else .timeout := by
    rw [Schedule.input, here]
  obtain ⟨zero, nonzero⟩ := run_waitLen (s := x.serve l s) here
  by_cases len : (x.serve l s).gLen = 0
  · rw [if_pos len] at input
    exact ⟨_, step _ _ input (zero len), (if_pos (.inl len)).symm⟩
  · rw [if_neg len] at input
    by_cases signal : x.signal = true
    · rw [if_pos signal] at input
      exact ⟨_, step _ _ input (nonzero len).1, (if_pos (.inr signal)).symm⟩
    · rw [if_neg signal] at input
      exact ⟨_, step _ _ input (nonzero len).2, (if_neg (not_or.2 ⟨len, signal⟩)).symm⟩

/-- The wait for `comp_read`. -/
theorem waitRead_follows (here : l.pc = .waitRead) : ∃ l' s', Follows x [.waitRead] l s l' s' ∧
    s'.compStop = (x.serve l s).compStop ∧
    l'.pc = if (x.serve l s).compRead = [] then afterTimeout .rx else .waitStop .rx := by
  cases reads : (x.serve l s).compRead with
  | nil =>
    have run : Proc.run false l (x.serve l s) (x.input l (x.serve l s)) =
        some { loc := l.goto (afterTimeout .rx), shared := x.serve l s } := by
      simp [Proc.run, Proc.wait, Schedule.input, here, reads]
    have follows := follows_stmt run rfl rfl
    rw [here] at follows
    exact ⟨_, _, follows, rfl, by simp⟩
  | cons t ts =>
    have run : Proc.run false l (x.serve l s) (x.input l (x.serve l s)) =
        some { loc := { l with pc := .waitStop .rx, gotRead := some t },
               shared := { x.serve l s with compRead := ts, taken := (x.serve l s).taken ++ [(t, l.rx)] } } := by
      simp [Proc.run, Proc.wait, Schedule.input, here, reads]
    have follows := follows_stmt run rfl rfl
    rw [here] at follows
    exact ⟨_, _, follows, rfl, by simp⟩

/-- A wait for `comp_stop`, which takes one completion. -/
theorem waitStop_follows {ph : Phase} (here : l.pc = .waitStop ph) : ∃ l' s', Follows x [.waitStop ph] l s l' s' ∧
    s'.compStop = (x.serve l s).compStop.tail ∧ s'.compRead = (x.serve l s).compRead ∧
    l'.pc = if (x.serve l s).compStop = [] then afterTimeout ph else l.afterStop ph := by
  cases stops : (x.serve l s).compStop with
  | nil =>
    have run : Proc.run false l (x.serve l s) (x.input l (x.serve l s)) =
        some { loc := l.goto (afterTimeout ph), shared := x.serve l s } := by
      simp [Proc.run, Proc.wait, Schedule.input, here, stops]
    have follows := follows_stmt run rfl rfl
    rw [here] at follows
    exact ⟨_, _, follows, by simp [stops], rfl, by simp⟩
  | cons t ts =>
    have run : Proc.run false l (x.serve l s) (x.input l (x.serve l s)) =
        some { loc := { l with pc := l.afterStop ph, gotStop := some t },
               shared := { x.serve l s with compStop := ts,
                                            taken := (x.serve l s).taken ++ [(t, l.startOf ph)] } } := by
      simp [Proc.run, Proc.wait, Schedule.input, here, stops]
    have follows := follows_stmt run rfl rfl
    rw [here] at follows
    exact ⟨_, _, follows, rfl, rfl, by simp⟩

/-! The rest of the call -/

/-- The call returns within `k` statements: a success after the statements `rest` if
`done`, and -1 if not. -/
def Ends (x : Schedule) (l : Proc) (s : Shared) (k : Nat) (done : Prop) (rest : List Pc) : Prop :=
  ∀ n, ∃ v ws, x.run (n + k) l s = some (v, ws) ∧ (done → v ≠ -1 ∧ ws = x.during rest) ∧ (¬ done → v = -1)

variable {k m : Nat} {done done' : Prop} {rest : List Pc} {o : Outcome}

theorem Ends.more (h : Ends x l s k done rest) (le : k ≤ m) : Ends x l s m done rest := by
  intro n
  obtain ⟨v, ws, run, outcome⟩ := h (n + (m - k))
  exact ⟨v, ws, by rw [← run]; congr 1; omega, outcome⟩

theorem Ends.congr (h : Ends x l s k done rest) (iff : done ↔ done') : Ends x l s k done' rest := by
  rwa [← propext iff]

/-- Statements before the rest. -/
theorem Follows.ends (h : Follows x pcs l s l' s') (e : Ends x l' s' k done rest) :
    Ends x l s (k + pcs.length) done (pcs ++ rest) := by
  intro n
  obtain ⟨v, ws, run, good, bad⟩ := e n
  refine ⟨v, x.during pcs ++ ws, ?_, fun d => ⟨(good d).1, ?_⟩, bad⟩
  · rw [← Nat.add_assoc, h.run, run]
    rfl
  · rw [(good d).2]
    simp [Schedule.during]

theorem retval_iff (l : Proc) (s : Shared) (o : Outcome) : l.retval s o = -1 ↔ o = .failed := by
  cases o with
  | failed => simp [Proc.retval]
  | done =>
    unfold Proc.retval
    split
    · next h => cases h
    · split
      · decide
      · simp only [reduceCtorEq]

/-- The last cleanup before `mutex_unlock`. -/
theorem unlock_ends {pc : Pc} (here : l.pc = pc) (next : pc.cleanup = some (.unlock o)) :
    Ends x l s 3 (o = .done) [pc, .unlock o, .leave o] := by
  intro n
  subst here
  obtain ⟨l₁, s₁, first, pc₁⟩ := cleanup_follows (x := x) (l := l) (s := s) next
  have unlock : l₁.pc.cleanup = some (.leave o) := by rw [pc₁]; rfl
  obtain ⟨l₂, s₂, second, pc₂⟩ := cleanup_follows (x := x) (s := s₁) unlock
  have run := (first.trans second).run (n + 1)
  rw [leave_returns pc₂, pc₁, pc₂] at run
  refine ⟨_, _, run, fun success => ⟨?_, by simp [Schedule.during]⟩, fun failed => ?_⟩
  · show l₂.retval _ o ≠ -1
    rw [ne_eq, retval_iff, success]
    decide
  · show l₂.retval _ o = -1
    rw [retval_iff]
    cases o with
    | done => exact absurd rfl failed
    | failed => rfl

/-- A wait has elapsed. -/
theorem timeout_ends {ph : Phase} (here : l.pc = afterTimeout ph) (not : ¬ done) : Ends x l s 4 done rest := by
  intro n
  cases ph with
  | tx =>
    obtain ⟨v, ws, run, -, bad⟩ := unlock_ends (x := x) (s := s) (o := .failed) here rfl (n + 1)
    exact ⟨v, ws, run, fun d => absurd d not, fun _ => bad (by decide)⟩
  | rx =>
    have reinit : l.pc.cleanup = some (.reinitStop .rx .failed) := by rw [here]; rfl
    obtain ⟨l', s', follows, pc⟩ := cleanup_follows (x := x) (s := s) reinit
    obtain ⟨v, ws, run, -, bad⟩ := follows.ends (unlock_ends (o := .failed) pc rfl) n
    exact ⟨v, ws, run, fun d => absurd d not, fun _ => bad (by decide)⟩

/-! The whole call -/

/-- The completions that are pending after the statements `pcs`, when `taken` of
`comp_stop` have been waited for. -/
structure Counts (x : Schedule) (pcs : List Pc) (taken : Nat) (s : Shared) : Prop where
  stops : s.compStop.length + taken = occurrences i2cIrqArdy (x.during pcs)
  reads : s.compRead.length = occurrences i2cIrqRrdy (x.during pcs)

theorem during_append (x : Schedule) (pcs qs : List Pc) : x.during (pcs ++ qs) = x.during pcs ++ x.during qs := by
  simp [Schedule.during]

theorem Counts.presented {taken : Nat} (h : Counts x pcs taken s) (p : Presented (x.during qs) s s') :
    Counts x (pcs ++ qs) taken s' := by
  obtain ⟨stops, reads⟩ := h
  constructor
  · rw [during_append, occurrences_append, p.stops]
    omega
  · rw [during_append, occurrences_append, p.reads]
    omega

theorem serve_presented {pc : Pc} (here : l.pc = pc) : Presented (x.during [pc]) s (x.serve l s) := by
  have words : x.during [pc] = x.words l.pc := by simp [Schedule.during, here]
  rw [words]
  exact presents_eq _ s

/-- The statements after the second wait for `comp_stop`. -/
def closing : List Pc := [.waitStop .rx, .reinitRead .done, .unlock .done, .leave .done]

/-- From the second wait for `comp_stop` on. -/
theorem stop2_ends (h : s.compStop.length + 1 = occurrences i2cIrqArdy (x.during pcs)) (here : l.pc = .waitStop .rx) :
    Ends x l s 5 (2 ≤ occurrences i2cIrqArdy (x.during (pcs ++ [.waitStop .rx]))) closing := by
  have served := (serve_presented (x := x) (s := s) here).stops
  rw [during_append, occurrences_append]
  obtain ⟨l', s', follows, -, -, pc⟩ := waitStop_follows (x := x) (s := s) here
  cases stops : (x.serve l s).compStop with
  | nil =>
    rw [if_pos stops] at pc
    rw [stops, List.length_nil] at served
    have none : ¬ 2 ≤ occurrences i2cIrqArdy (x.during pcs) + occurrences i2cIrqArdy (x.during [.waitStop .rx]) := by
      omega
    have rest : Ends x l' s' 4 _ [.reinitRead .done, .unlock .done, .leave .done] := timeout_ends pc none
    exact follows.ends rest
  | cons t ts =>
    rw [if_neg (by rw [stops]; simp)] at pc
    rw [stops, List.length_cons] at served
    have rest : Ends x l' s' 3 _ [.reinitRead .done, .unlock .done, .leave .done] := unlock_ends pc rfl
    exact ((follows.ends rest).more (by decide)).congr ⟨fun _ => by omega, fun _ => rfl⟩

/-- From the wait for `comp_read` on. -/
theorem read_ends (h : Counts x pcs 1 s) (here : l.pc = .waitRead) :
    Ends x l s 6 (1 ≤ occurrences i2cIrqRrdy (x.during (pcs ++ [.waitRead])) ∧
      2 ≤ occurrences i2cIrqArdy (x.during (pcs ++ [.waitRead] ++ [.waitStop .rx]))) ([.waitRead] ++ closing) := by
  have counts := h.presented (serve_presented (x := x) (s := s) here)
  obtain ⟨l', s', follows, stops, pc⟩ := waitRead_follows (x := x) (s := s) here
  cases reads : (x.serve l s).compRead with
  | nil =>
    rw [if_pos reads] at pc
    have none := counts.reads
    rw [reads, List.length_nil] at none
    exact (follows.ends (timeout_ends pc (by omega))).more (by decide)
  | cons t ts =>
    rw [if_neg (by rw [reads]; simp)] at pc
    have some := counts.reads
    rw [reads, List.length_cons] at some
    have taken : s'.compStop.length + 1 = occurrences i2cIrqArdy (x.during (pcs ++ [.waitRead])) := by
      rw [stops]
      exact counts.stops
    have rest := stop2_ends taken pc
    exact (follows.ends rest).congr ⟨fun two => ⟨by omega, two⟩, fun both => both.2⟩

/-- The second phase of a read. -/
theorem receive_ends (h : Counts x pcs 1 s) (here : l.pc = .setLen .rx) :
    Ends x l s 9 (1 ≤ occurrences i2cIrqRrdy (x.during (pcs ++ Call.receive)) ∧
      2 ≤ occurrences i2cIrqArdy (x.during (pcs ++ Call.receive ++ [.waitStop .rx]))) (Call.receive ++ closing) := by
  have counts := h.presented (serve_presented (x := x) (s := s) here)
  obtain ⟨l₁, s₁, first, pc₁, -, stops, reads⟩ := setLen_follows (x := x) (s := s) here
  have counts₁ : Counts x (pcs ++ [.setLen .rx]) 1 s₁ :=
    ⟨by rw [stops]; exact counts.stops, by rw [reads]; exact counts.reads⟩
  have walk : Walk l₁.call (.setCnt .rx) [.setCnt .rx, .start .rx] .waitRead := .cons rfl (.cons rfl .nil)
  obtain ⟨l₂, s₂, second, pc₂, presented⟩ := walk.follows (x := x) (s := s₁) rfl pc₁
  have rest := read_ends (counts₁.presented presented) pc₂
  have whole := (first.trans second).ends rest
  simpa [Call.receive] using whole

/-- The waits after the one for `g_len` get what they wait for. -/
def Schedule.Stops (x : Schedule) (pcs : List Pc) : Call → Prop
  | .write .. => 1 ≤ occurrences i2cIrqArdy (x.during (pcs ++ [.waitStop .tx]))
  | .read .. => 1 ≤ occurrences i2cIrqArdy (x.during (pcs ++ [.waitStop .tx])) ∧
      1 ≤ occurrences i2cIrqRrdy (x.during (pcs ++ [.waitStop .tx] ++ Call.receive)) ∧
      2 ≤ occurrences i2cIrqArdy (x.during (pcs ++ [.waitStop .tx] ++ Call.receive ++ [.waitStop .rx]))

theorem Schedule.Stops.ardy (h : x.Stops pcs c) : 1 ≤ occurrences i2cIrqArdy (x.during (pcs ++ [.waitStop .tx])) := by
  cases c with
  | write => exact h
  | read => exact h.1

/-- The statements after the wait for `g_len`. -/
def Call.finish : Call → List Pc
  | .write .. => [.waitStop .tx, .reinitStop .tx .done, .unlock .done, .leave .done]
  | .read .. => .waitStop .tx :: (Call.receive ++ closing)

/-- From the first wait for `comp_stop` on. -/
theorem stop1_ends (h : Counts x pcs 0 s) (here : l.pc = .waitStop .tx) :
    Ends x l s 10 (x.Stops pcs l.call) l.call.finish := by
  have counts := h.presented (serve_presented (x := x) (s := s) here)
  obtain ⟨l', s', follows, stops, reads, pc⟩ := waitStop_follows (x := x) (s := s) here
  have served := counts.stops
  cases all : (x.serve l s).compStop with
  | nil =>
    rw [if_pos all] at pc
    rw [all, List.length_nil] at served
    have none : ¬ x.Stops pcs l.call := fun stops => by
      have ardy := stops.ardy
      omega
    have rest : Ends x l s 5 (x.Stops pcs l.call) (.waitStop .tx :: l.call.finish.tail) :=
      follows.ends (timeout_ends pc none)
    cases hc : l.call <;> rw [hc] at rest <;> exact rest.more (by decide)
  | cons t ts =>
    rw [if_neg (by rw [all]; simp)] at pc
    rw [all, List.length_cons] at served
    rw [all, List.tail_cons] at stops
    cases hc : l.call with
    | write value reg slave =>
      have there : l'.pc = .reinitStop .tx .done := by rw [pc, Proc.afterStop, hc]
      have rest : Ends x l' s' 3 _ [.reinitStop .tx .done, .unlock .done, .leave .done] := unlock_ends there rfl
      have whole : Ends x l s 10 _ (Call.finish (.write value reg slave)) := (follows.ends rest).more (by decide)
      exact whole.congr ⟨fun _ => by show 1 ≤ _; omega, fun _ => rfl⟩
    | read reg slave =>
      have there : l'.pc = .setLen .rx := by rw [pc, Proc.afterStop, hc]
      have counts' : Counts x (pcs ++ [.waitStop .tx]) 1 s' :=
        ⟨by rw [stops]; omega, by rw [reads]; exact counts.reads⟩
      have rest : Ends x l s 10 _ (Call.finish (.read reg slave)) := follows.ends (receive_ends counts' there)
      exact rest.congr ⟨fun both => ⟨by omega, both⟩, fun all => all.2⟩

/-- From the wait for `g_len` on. -/
theorem len_ends (h : Counts x pcs 0 s) (here : l.pc = .waitLen) :
    Ends x l s 11 (((x.serve l s).gLen = 0 ∨ x.signal = true) ∧ x.Stops (pcs ++ [.waitLen]) l.call)
      (.waitLen :: l.call.finish) := by
  have counts := h.presented (serve_presented (x := x) (s := s) here)
  obtain ⟨l', follows, pc⟩ := waitLen_follows (x := x) (s := s) here
  by_cases passes : (x.serve l s).gLen = 0 ∨ x.signal = true
  · rw [if_pos passes] at pc
    have rest := stop1_ends counts pc
    rw [follows.call] at rest
    exact (follows.ends rest).congr ⟨fun stops => ⟨passes, stops⟩, fun both => both.2⟩
  · rw [if_neg passes] at pc
    exact (follows.ends (timeout_ends pc fun both => passes both.1)).more (by decide)

/-- Up to `prv_set_count`. -/
theorem opening_follows (none : s.compStop = [] ∧ s.compRead = []) (here : l.pc = .wakeup) :
    ∃ l' s', Follows x Call.opening l s l' s' ∧ l'.pc = .setCnt .tx ∧ s'.gLen = l.call.count .tx ∧
      Counts x Call.opening 0 s' := by
  have walk : Walk l.call .wakeup [.wakeup, .clkPoll, .busPoll 0, .lock, .setSlave] (.setLen .tx) :=
    .cons rfl (.cons rfl (.cons rfl (.cons rfl (.cons rfl .nil))))
  obtain ⟨l₁, s₁, first, pc₁, presented⟩ := walk.follows (x := x) (s := s) rfl here
  have start : Counts x [] 0 s := ⟨by rw [none.1]; rfl, by rw [none.2]; rfl⟩
  have counts := (start.presented presented).presented (serve_presented (x := x) (s := s₁) pc₁)
  obtain ⟨l₂, s₂, second, pc₂, len, stops, reads⟩ := setLen_follows (x := x) (s := s₁) pc₁
  refine ⟨l₂, s₂, first.trans second, pc₂, ?_, ?_, ?_⟩
  · rw [len, first.call]
  · rw [stops]; exact counts.stops
  · rw [reads]; exact counts.reads

/-- The statements of `Call.transmit` before the wait. -/
theorem transmit_walk (c : Call) : ∃ pcs, Walk c (.setCnt .tx) pcs .waitLen ∧ c.transmit = pcs ++ [.waitLen] ∧
    pcs.length ≤ 5 := by
  cases c with
  | write => exact ⟨_, .cons rfl (.cons rfl (.cons rfl (.cons rfl (.cons rfl .nil)))), rfl, by decide⟩
  | read => exact ⟨_, .cons rfl (.cons rfl (.cons rfl (.cons rfl .nil))), rfl, by decide⟩

theorem sub_ofNat_eq_zero (len : U16) (n : Nat) : len - BitVec.ofNat 16 n = 0 ↔ n % 65536 = len.toNat := by
  rw [← BitVec.toNat_inj, BitVec.toNat_sub, BitVec.toNat_ofNat]
  have bound := len.isLt
  simp only [BitVec.ofNat_eq_ofNat, BitVec.toNat_ofNat]
  omega

theorem completes_iff : x.Completes c ↔ x.Transmits c ∧ x.Stops (Call.opening ++ c.transmit) c := by
  cases c with
  | write => simp only [Schedule.Completes, Schedule.Stops, Call.phase1, and_true]
  | read => simp only [Schedule.Completes, Schedule.Stops, Call.phase2, Call.phase1]

theorem path_eq (c : Call) : c.path = Call.opening ++ (c.transmit ++ c.finish) := by cases c <;> rfl

/-- The whole call. -/
theorem call_ends (none : s.compStop = [] ∧ s.compRead = []) (here : l.pc = .wakeup) :
    Ends x l s 24 (x.Completes l.call) l.call.path := by
  obtain ⟨pcs, walk, transmit, length⟩ := transmit_walk l.call
  obtain ⟨l₁, s₁, opening, pc₁, len, counts⟩ := opening_follows (x := x) none here
  obtain ⟨l₂, s₂, prepare, pc₂, presented⟩ := walk.follows (x := x) (s := s₁) opening.call pc₁
  -- `g_len` at the wait, with the words of the statements since `prv_set_count`
  have served := presented.trans (serve_presented (x := x) (s := s₂) pc₂)
  rw [← during_append, ← transmit] at served
  have passes : (x.serve l₂ s₂).gLen = 0 ↔ decrements (x.during l.call.transmit) % 65536 = (l.call.count .tx).toNat := by
    rw [served.len, len, sub_ofNat_eq_zero]
  have rest := len_ends (counts.presented presented) pc₂
  rw [prepare.call, opening.call, passes, List.append_assoc, ← transmit] at rest
  have whole := opening.ends (prepare.ends rest)
  have steps : pcs ++ .waitLen :: l.call.finish = l.call.transmit ++ l.call.finish := by
    rw [transmit, List.append_assoc]
    rfl
  rw [steps, ← path_eq] at whole
  have bound : 11 + pcs.length + Call.opening.length ≤ 24 := by
    have six : Call.opening.length = 6 := rfl
    omega
  exact (whole.more bound).congr completes_iff.symm

end Follows

/-- A call returns; it succeeds if the words complete it, and returns -1 if not. -/
theorem call_returns (c : Call) (s : Shared) (x : Schedule) : ∃ v ws, x.call c s.cleared = some (v, ws) ∧
    (x.Completes c → v ≠ -1 ∧ ws = x.during c.path) ∧ (¬ x.Completes c → v = -1) := by
  have ends : Ends x { pc := .wakeup, call := c } s.cleared 24 (x.Completes c) c.path := call_ends ⟨rfl, rfl⟩ rfl
  obtain ⟨v, ws, run, outcome⟩ := ends 0
  rw [Nat.zero_add] at run
  exact ⟨v, ws, run, outcome⟩

/-- A bus error is reported, unless the words complete the call without regard to it. -/
theorem errors_reported_iff (c : Call) (s : Shared) (x : Schedule) :
    Reported c s x ↔ ¬ (x.Completes c ∧ ∃ w ∈ x.during c.path, BusError w) := by
  obtain ⟨v, ws, run, success, failure⟩ := call_returns c s x
  constructor
  · rintro ⟨v', ws', run', reported⟩ ⟨completes, error⟩
    rw [run, Option.some.injEq, Prod.mk.injEq] at run'
    obtain ⟨rfl, rfl⟩ := run'
    obtain ⟨succeeds, words⟩ := success completes
    exact succeeds (reported (by rwa [words]))
  · intro apart
    refine ⟨v, ws, run, fun error => ?_⟩
    by_cases completes : x.Completes c
    · rw [(success completes).2] at error
      exact absurd ⟨completes, error⟩ apart
    · exact failure completes

/-- The controller asks for both bytes and reports the second one not acknowledged,
together with the end of the access. -/
def lostByte : Schedule where
  words
    | .waitLen => [i2cIrqXrdy, i2cIrqXrdy]
    | .waitStop .tx => [i2cIrqNack, i2cIrqArdy]
    | _ => []

/-- The write returns 0. -/
theorem lostByte_not_reported : ¬ ∀ c s x, Reported c s x := by
  intro all
  obtain ⟨v, ws, run, reported⟩ := all (.write 0x27 0xF4 0x77) {} lostByte
  have returns : lostByte.call (.write 0x27 0xF4 0x77) (Shared.cleared {}) =
      some (0, [i2cIrqXrdy, i2cIrqXrdy, i2cIrqNack, i2cIrqArdy]) := by decide +kernel
  rw [returns, Option.some.injEq, Prod.mk.injEq] at run
  obtain ⟨rfl, rfl⟩ := run
  exact absurd (reported ⟨i2cIrqNack, by decide, by decide⟩) (by decide)

end Beaglebone.I2c
