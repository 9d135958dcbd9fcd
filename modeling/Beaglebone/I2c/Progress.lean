import Beaglebone.Machine.Potential
import Beaglebone.I2c.BusBusy

/-!
# Progress of the calls and of the handler

Every wait of a call elapses, so a call cannot be stuck inside its critical
section: `Pc.rank` counts down at every statement, apart from the rounds of
`while(prv_is_clk_disabled());`, and every statement but the one that takes
`lock_bus` can run at once. This needs nothing of the controller: no interrupt has
to come, and timeouts and signals are allowed (`calls_return`).

The loop of `prv_isr` goes round only for interrupts raised while it ran
(`handler_returns`).
-/

namespace Beaglebone.I2c

open Machine

/-- The statements that a call still has to run. -/
def Pc.rank : Pc → Nat
  | .idle => 0
  | .leave _ => 1
  | .unlock _ => 2
  | .reinitStop _ _ => 3
  | .reinitRead _ => 4
  | .waitStop .rx => 5
  | .waitRead => 6
  | .start .rx => 7
  | .setCnt .rx => 8
  | .setLen .rx => 9
  | .waitStop .tx => 10
  | .waitLen => 11
  | .start .tx => 12
  | .clearFifo => 13
  | .putLow => 14
  | .putReg => 15
  | .setCnt .tx => 16
  | .setLen .tx => 17
  | .setSlave => 18
  | .lock => 19
  | .busPoll i => 20 + (busPollLimit - i).toNat
  | .clkPoll => 121
  | .wakeup => 122

/-- A call inside its critical section is near its end. -/
theorem rank_inside {pc : Pc} (inside : pc.inside = true) : 2 ≤ pc.rank ∧ pc.rank ≤ 18 := by
  cases pc with
  | idle | wakeup | clkPoll | busPoll | lock | leave => cases inside
  | setLen ph | setCnt ph | start ph | waitStop ph => cases ph <;> simp [Pc.rank]
  | _ => simp [Pc.rank]

/-- The statements of a call, without the rounds that find the clock disabled. -/
def Input.counts : Input → Nat
  | .call _ | .spin => 0
  | .go | .timeout | .signal => 1

/-- The beginning of a call. -/
def Input.begins : Input → Nat
  | .call _ => 1
  | .go | .spin | .timeout | .signal => 0

variable {b : Bool} {l : Proc} {s s' : Shared} {i : Input} {m : Move Proc Shared Ret} {e : Env}

/-- Every statement counts the rank down, and a new call starts at its top. -/
theorem Stmt.rank (hs : Stmt b l s i m) : m.loc.pc.rank + i.counts ≤ l.pc.rank + 122 * i.begins := by
  cases hs with
  | call c pc => simp [pc, Pc.rank, Input.counts, Input.begins]
  | spin pc => simp [Input.counts, Input.begins]
  | awake pc =>
    rw [pc]
    show 120 + 1 ≤ 121 + 0
    omega
  | @again k j pc next =>
    obtain ⟨-, more, rfl⟩ := pollNext_again next
    have lt := counter_lt more
    simp only [pc, Pc.rank, Input.counts, Input.begins]
    omega
  | refused pc next | granted pc next =>
    simp only [pc, Pc.rank, Input.counts, Input.begins]
    omega
  | setCnt ph pc =>
    rw [pc]
    cases ph with
    | tx => cases hc : l.call <;> simp [Proc.afterCnt, Proc.goto, hc, Pc.rank, Input.counts, Input.begins]
    | rx => simp [Proc.afterCnt, Proc.goto, Pc.rank, Input.counts, Input.begins]
  | takeStop ph t ts pc =>
    rw [pc]
    cases ph with
    | tx => cases hc : l.call <;> simp [Proc.afterStop, hc, Pc.rank, Input.counts, Input.begins]
    | rx => simp [Proc.afterStop, Pc.rank, Input.counts, Input.begins]
  | setLen ph pc | start ph pc | elapsedStop ph pc =>
    rw [pc]
    cases ph <;> simp [afterStart, afterTimeout, Pc.rank, Input.counts, Input.begins]
  | reinitRead o pc =>
    rw [pc]
    cases o <;> simp [Proc.afterReinitRead, Pc.rank, Input.counts, Input.begins]
  | _ => simp [*, Pc.rank, Input.counts, Input.begins]

/-- Every statement can run at once, unless the mutex is in its way. -/
theorem Proc.enabled (b : Bool) (l : Proc) (s : Shared) (busy : l.pc ≠ .idle) :
    ∃ i, i.counts = 1 ∧ (l.run b s i).isSome = true := by
  cases pc : l.pc with
  | idle => exact absurd pc busy
  | busPoll k =>
    refine ⟨.go, rfl, ?_⟩
    simp only [Proc.run, pc]
    split <;> rfl
  | waitLen =>
    by_cases len : s.gLen = 0#16
    · exact ⟨.go, rfl, by simp [Proc.run, pc, len]⟩
    · exact ⟨.timeout, rfl, by simp [Proc.run, pc, len]⟩
  | waitRead =>
    cases comp : s.compRead with
    | nil => exact ⟨.timeout, rfl, by simp [Proc.run, pc, Proc.wait, comp]⟩
    | cons t ts => exact ⟨.go, rfl, by simp [Proc.run, pc, Proc.wait, comp]⟩
  | waitStop ph =>
    cases comp : s.compStop with
    | nil => exact ⟨.timeout, rfl, by simp [Proc.run, pc, Proc.wait, comp]⟩
    | cons t ts => exact ⟨.go, rfl, by simp [Proc.run, pc, Proc.wait, comp]⟩
  | _ => exact ⟨.go, rfl, by simp [Proc.run, pc]⟩

/-- `mutex_lock` is the only statement that waits for the mutex. -/
theorem Stmt.acquires (hs : Stmt b l s i m) (op : m.op = .acquire) : l.pc = .lock := by
  cases hs with
  | lock pc => exact pc
  | _ => cases op

/-! The handler -/

/-- The word that the handler works on. -/
def Isr.latched : Isr → U16
  | .off | .test => 0
  | .ardy irq | .rrdyLen irq | .rrdyData irq | .rrdyDone irq | .xrdyLen irq | .xrdyData irq | .xrdyWake irq
  | .ack irq => irq

/-- The statements to the next test of the loop, and the test. -/
def Isr.rank : Isr → Nat
  | .off => 0
  | .test => 1
  | .ardy _ => 9
  | .rrdyLen _ => 8
  | .rrdyData _ => 7
  | .rrdyDone _ => 6
  | .xrdyLen _ => 5
  | .xrdyData _ => 4
  | .xrdyWake _ => 3
  | .ack _ => 2

/-- The loop will go round once more: an enabled bit is set that is not in the word. -/
def Shared.again (s : Shared) : Bool := isSet (s.status &&& ~~~s.isr.latched) irqEnabled

/-- The statements that the handler still has to run. -/
def Shared.isrRank (s : Shared) : Nat := s.isr.rank + 9 * s.again.toNat

/-- An interrupt is raised. -/
def Env.raises : Env → Nat
  | .xrdy _ | .rrdy _ _ | .ardy _ | .nack | .al => 1
  | .bus _ | .enter | .isr => 0

/-- The handler is entered. -/
def Env.enters : Env → Nat
  | .enter => 1
  | .bus _ | .xrdy _ | .rrdy _ _ | .ardy _ | .nack | .al | .isr => 0

/-- A statement of the handler. -/
def Env.handles : Env → Nat
  | .isr => 1
  | .bus _ | .xrdy _ | .rrdy _ _ | .ardy _ | .nack | .al | .enter => 0

theorem and_not_zero (w : U16) : w &&& ~~~0 = w := by
  have ones : ~~~(0 : U16) = BitVec.allOnes 16 := by decide
  rw [ones, BitVec.and_allOnes]

/-- Raising an interrupt makes the loop go round at most once more. -/
theorem isrRank_raise (same : s'.isr = s.isr) : s'.isrRank ≤ s.isrRank + 9 := by
  have once : s'.again.toNat ≤ 1 := Bool.toNat_le _
  unfold Shared.isrRank
  rw [same]
  omega

/-- BB is not among the enabled interrupts. -/
theorem again_bus (w v : U16) (busy : Bool) :
    isSet ((if busy then w ||| i2cIrqBb else w &&& ~~~i2cIrqBb) &&& v) irqEnabled = isSet (w &&& v) irqEnabled := by
  have off : i2cIrqBb &&& irqEnabled = 0#16 := by decide
  have rest : ~~~i2cIrqBb &&& irqEnabled = irqEnabled := by decide
  have masked : ∀ x : U16, isSet (x &&& v) irqEnabled = isSet (x &&& irqEnabled) v := fun x => by
    rw [isSet, isSet, BitVec.and_assoc, BitVec.and_assoc, BitVec.and_comm v]
  rw [masked, masked]
  cases busy with
  | true =>
    have same : (w ||| i2cIrqBb) &&& irqEnabled = w &&& irqEnabled := by
      rw [BitVec.and_or_distrib_right, off, BitVec.or_zero]
    simp only [if_true, same]
  | false => simp only [Bool.false_eq_true, if_false, BitVec.and_assoc, rest]

theorem EnvStep.isrRank (hs : EnvStep s e s') : s'.isrRank + e.handles ≤ s.isrRank + 9 * e.raises + e.enters := by
  cases hs with
  | bus busy =>
    have same : ({ s with status := if busy then s.status ||| i2cIrqBb else s.status &&& ~~~i2cIrqBb } :
      Shared).again = s.again := again_bus s.status _ busy
    simp only [Shared.isrRank, same]
    exact Nat.le_refl _
  | xrdy | rrdy | ardy | nack | al => exact isrRank_raise rfl
  | enter isr =>
    have same : ({ s with isr := .test } : Shared).again = s.again := by simp only [Shared.again, isr, Isr.latched]
    simp only [Shared.isrRank, same, isr, Isr.rank, Env.handles, Env.raises, Env.enters]
    omega
  | latch isr any =>
    have before : s.again = true := by simpa only [Shared.again, isr, Isr.latched, and_not_zero] using any
    have after : ({ s with isr := .ardy s.status } : Shared).again = false := by simp [Shared.again, Isr.latched]
    simp only [Shared.isrRank, before, after, isr, Isr.rank, Env.handles, Env.raises, Env.enters]
    decide
  | finish isr any =>
    have after : ({ s with isr := .off } : Shared).again = false := by
      simpa only [Shared.again, Isr.latched, and_not_zero] using any
    simp only [Shared.isrRank, after, isr, Isr.rank, Env.handles, Env.raises, Env.enters]
    simp
  | ack irq isr =>
    have same : ({ s with isr := .test, status := s.status &&& ~~~irq } : Shared).again = s.again := by
      simp only [Shared.again, isr, Isr.latched, and_not_zero]
    simp only [Shared.isrRank, same, isr, Isr.rank, Env.handles, Env.raises, Env.enters]
    omega
  | stop irq isr bit | skipStop irq isr bit | readLen irq isr bit | skipRead irq isr bit
  | writeLen irq isr bit | skipWrite irq isr bit | readData irq isr | readDone irq isr
  | writeData irq isr | wake irq isr =>
    simp only [Shared.isrRank, Shared.again, Shared.push, isr, Isr.rank, Isr.latched, Env.handles, Env.raises,
      Env.enters]
    omega

section Runs

variable {P : Type} [DecidableEq P]

/-- The step is a statement of `p`, not a round that finds the clock disabled. -/
def statement (p : P) : Action P → Nat
  | .proc q i => if q = p then i.counts else 0
  | .env _ => 0

/-- The step begins a call of `p`. -/
def callOf (p : P) : Action P → Nat
  | .proc q i => if q = p then i.begins else 0
  | .env _ => 0

def raise : Action P → Nat
  | .env e => e.raises
  | .proc _ _ => 0

def enter : Action P → Nat
  | .env e => e.enters
  | .proc _ _ => 0

def handle : Action P → Nat
  | .env e => e.handles
  | .proc _ _ => 0

variable {g g' : State P} {a : Action P} {as : List (Action P)}

theorem step_rank (p : P) (hs : step g a = some g') :
    (g'.proc p).pc.rank + statement p a ≤ (g.proc p).pc.rank + 122 * callOf p a := by
  cases a with
  | env e =>
    obtain ⟨s, -, rfl⟩ := Monitor.step_env hs
    exact Nat.le_refl _
  | proc q i =>
    obtain ⟨m, hr, hproc, -⟩ := Monitor.step_proc hs
    simp only [statement, callOf]
    rw [hproc]
    by_cases same : q = p
    · subst same
      simpa using (Proc.run_stmt hr).rank
    · simp [same, upd_other _ _ (Ne.symm same)]

/-- Over a run, the statements of a process are paid by its calls. -/
theorem run_rank (p : P) (run : runIf step always g as = some g') :
    (g'.proc p).pc.rank + total (statement p) as ≤ (g.proc p).pc.rank + 122 * total (callOf p) as := by
  have pays := runIf_potential (fun g : State P => (g.proc p).pc.rank) (statement p) (fun a => 122 * callOf p a)
    (fun _ _ _ _ hs => step_rank p hs) run
  rwa [total_mul] at pays

/-- A process of a reachable state has at most a whole call ahead. -/
theorem rank_le (h : Reach step always (initial P) g) (p : P) : (g.proc p).pc.rank ≤ 122 := by
  have polled : ∀ p, (g.proc p).Polled :=
    Monitor.locally (fun _ => ⟨by simp [initial], by simp [initial], by simp [initial, Pc.inside],
      by simp [initial], by simp [initial]⟩) h fun _ _ _ _ _ hr k => k.stmt (Proc.run_stmt hr)
  have polling := (polled p).polling
  cases pc : (g.proc p).pc with
  | busPoll k =>
    have le := (polling k pc).2.1
    simp only [Pc.rank, busPollLimit]
    bv_omega
  | setLen ph | setCnt ph | start ph | waitStop ph => cases ph <;> simp [Pc.rank]
  | _ => simp [Pc.rank]

/-- As long as some call is in progress, some process can execute a statement: the
one that holds the mutex, or any, if nobody does. -/
theorem not_stuck (h : Reach step always (initial P) g) {p : P} (busy : (g.proc p).pc ≠ .idle) :
    ∃ q i, i.counts = 1 ∧ (step g (.proc q i)).isSome = true := by
  cases lock : g.lock with
  | none =>
    obtain ⟨i, counts, ready⟩ := (g.proc p).enabled g.lock.isSome g.shared busy
    obtain ⟨m, run⟩ := Option.isSome_iff_exists.1 ready
    exact ⟨p, i, counts, Monitor.step_isSome run fun _ => lock⟩
  | some q =>
    have held : i2c.Held g := Monitor.Held.reach disciplined held_initial h
    have inside : (g.proc q).pc.inside = true := (held q).2 lock
    have working : (g.proc q).pc ≠ .idle := fun idle => by simp [idle, Pc.inside] at inside
    obtain ⟨i, counts, ready⟩ := (g.proc q).enabled g.lock.isSome g.shared working
    obtain ⟨m, run⟩ := Option.isSome_iff_exists.1 ready
    refine ⟨q, i, counts, Monitor.step_isSome run fun op => ?_⟩
    have pc := (Proc.run_stmt run).acquires op
    simp [pc, Pc.inside] at inside

/-- **Every call returns.** In every run from a reachable state, whatever
the controller does, a process executes at most 122 statements for the call it is in and
for each one it begins, and has then returned; the process that holds `lock_bus`
releases it within 17 statements; and as long as some call is in progress, some
process can execute a statement. -/
theorem calls_return (h : Reach step always (initial P) g) :
    (∀ as g', runIf step always g as = some g' → ∀ p,
      total (statement p) as ≤ 122 * (1 + total (callOf p) as) ∧
      (total (callOf p) as = 0 → 122 ≤ total (statement p) as → (g'.proc p).pc = .idle) ∧
      (g.lock = some p → total (callOf p) as = 0 → 17 ≤ total (statement p) as → g'.lock ≠ some p)) ∧
    ((∃ p, (g.proc p).pc ≠ .idle) → ∃ p i, i.counts = 1 ∧ (step g (.proc p i)).isSome = true) := by
  refine ⟨fun as g' run p => ?_, fun ⟨p, busy⟩ => ?_⟩
  · have held : i2c.Held g := Monitor.Held.reach disciplined held_initial h
    have held' : i2c.Held g' := Monitor.Held.reach disciplined held (Reach.start.runIf run)
    have rank := run_rank p run
    have top := rank_le h p
    refine ⟨by omega, fun none all => ?_, fun owner none most still => ?_⟩
    · have zero : (g'.proc p).pc.rank = 0 := by omega
      cases pc : (g'.proc p).pc with
      | idle => rfl
      | busPoll k => rw [pc] at zero; simp [Pc.rank] at zero
      | setLen ph | setCnt ph | start ph | waitStop ph => rw [pc] at zero; cases ph <;> cases zero
      | _ => rw [pc] at zero; cases zero
    · have inside := (held' p).2 still
      have low := (rank_inside inside).1
      have high := (rank_inside ((held p).2 owner)).2
      omega
  · exact not_stuck h busy

/-- A write that waits for its first XRDY. -/
def waitingWrite : List (Action Unit) :=
  .proc () (.call (.write 0x27 0xF4 0x76)) :: List.replicate 11 (.proc () .go)

/-- No interrupt comes; the call returns all the same. -/
theorem waitingWrite_returns : ∃ g : State Unit, g.lock = some () ∧ (g.proc ()).pc = .waitLen ∧
    (∀ as g', runIf step always g as = some g' → ∀ p,
      total (statement p) as ≤ 122 * (1 + total (callOf p) as) ∧
      (total (callOf p) as = 0 → 122 ≤ total (statement p) as → (g'.proc p).pc = .idle) ∧
      (g.lock = some p → total (callOf p) as = 0 → 17 ≤ total (statement p) as → g'.lock ≠ some p)) ∧
    ((∃ p, (g.proc p).pc ≠ .idle) → ∃ p i, i.counts = 1 ∧ (step g (.proc p i)).isSome = true) := by
  obtain ⟨g, run, lock, pc⟩ := exists_reach step always
    (fun g => g.lock = some () ∧ (g.proc ()).pc = .waitLen) (initial Unit) waitingWrite (by decide +kernel)
  exact ⟨g, lock, pc, calls_return run⟩

theorem Stmt.isrRank (hs : Stmt b l s i m) : m.shared.isrRank = s.isrRank := by
  cases hs <;> rfl

theorem step_isrRank (hs : step g a = some g') :
    g'.shared.isrRank + handle a ≤ g.shared.isrRank + (9 * raise a + enter a) := by
  cases a with
  | env e =>
    obtain ⟨s, he, rfl⟩ := Monitor.step_env hs
    have rank := (env_step he).isrRank
    simp only [handle, raise, enter]
    omega
  | proc p i =>
    obtain ⟨m, hr, -, shared, -⟩ := Monitor.step_proc hs
    rw [shared, (Proc.run_stmt hr).isrRank]
    exact Nat.le_refl _

/-- A handler that has been entered can run its next statement. -/
theorem Shared.prvIsr_isSome (s : Shared) (on : s.isr ≠ .off) : s.prvIsr.isSome = true := by
  unfold Shared.prvIsr
  split
  · next off => exact absurd off on
  all_goals first | rfl | (split <;> rfl)

/-- **`prv_isr` returns.** In every run the handler executes at most nine statements
for each interrupt raised and one for each entry: it goes round only for interrupts
that are raised while it runs; and it is never stuck in between. -/
theorem handler_returns {g' : State P} (run : runIf step always (initial P) as = some g') :
    total handle as ≤ 9 * total raise as + total enter as ∧
    (g'.shared.isr ≠ .off → (step g' (.env .isr)).isSome = true) := by
  have pays := runIf_potential (fun g : State P => g.shared.isrRank) handle (fun a => 9 * raise a + enter a)
    (fun _ _ _ _ hs => step_isrRank hs) run
  rw [total_add, total_mul] at pays
  have start : (initial P).shared.isrRank = 0 := by
    simp [initial, Shared.isrRank, Isr.rank, Shared.again, Isr.latched]
  refine ⟨by omega, fun on => ?_⟩
  obtain ⟨s, next⟩ := Option.isSome_iff_exists.1 (g'.shared.prvIsr_isSome on)
  show (Monitor.step i2c g' (.env .isr)).isSome = true
  simp [Monitor.step, i2c, Shared.env, next]

end Runs

/-- A NACK while the bus is idle. -/
def straySignal : List (Action Unit) := .env .nack :: .env .enter :: List.replicate 6 (.env .isr)

theorem straySignal_returns : ∃ g : State Unit, g.shared.isr = .off ∧
    total handle straySignal ≤ 9 * total raise straySignal + total enter straySignal ∧
    (g.shared.isr ≠ .off → (step g (.env .isr)).isSome = true) := by
  cases run : runIf step always (initial Unit) straySignal with
  | none => exact absurd run (by decide +kernel)
  | some g =>
    have off : (runIf step always (initial Unit) straySignal).any (·.shared.isr = .off) = true := by decide +kernel
    rw [run] at off
    exact ⟨g, of_decide_eq_true off, handler_returns run⟩

end Beaglebone.I2c
