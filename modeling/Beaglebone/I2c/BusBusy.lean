import Beaglebone.I2c.System

/-!
# The bus-busy guard

`prv_wait_for_bus_busy` should return 0 at the first sample that finds the bus
idle and `lock_bus` free. `prv_is_irq_triggered` returns the masked 16-bit word
as a `u8`, so bit 12 never reaches the loop condition and the loop waits for the
mutex only: the function is right exactly for the streams whose first sample with
a free mutex finds the bus idle. The calls of the system run the same loop
(`polled`), one sample at a step.
-/

namespace Beaglebone.I2c

open Machine

/-- The bus is idle and the mutex is free. -/
def Sample.quiet (x : Sample) : Prop := x.busBusy = false ∧ x.locked = false

/-- What the function is for: 0 at the first quiet sample among the first 101, and
-1 when there is none. -/
def Guards (sample : Nat → Sample) : Prop :=
  (∀ k ≤ 100, (sample k).quiet → (∀ n < k, ¬ (sample n).quiet) → prvWaitForBusBusy sample = (0, k)) ∧
  ((∀ n ≤ 100, ¬ (sample n).quiet) → (prvWaitForBusBusy sample).1 = -1)

/-- The first sample with a free mutex, if it comes in time, finds the bus idle. -/
def FirstFreeIdle (sample : Nat → Sample) : Prop :=
  ∀ k ≤ 100, (sample k).locked = false → (∀ n < k, (sample n).locked = true) → (sample k).busBusy = false

section Function

variable {sample : Nat → Sample} {k : Nat}

theorem wait_pass (hk : k ≤ 100) (busy : ∀ n < k, (sample n).locked = true)
    (free : (sample k).locked = false) : prvWaitForBusBusy sample = (0, k) := by
  have pass : poll busPollLimit (fun n => (sample n).busy) = (true, k) :=
    poll_eq_pass hk (by simpa using busy) (by simpa using free)
  rw [prvWaitForBusBusy, pass]

theorem wait_fail (busy : ∀ n ≤ 100, (sample n).locked = true) : prvWaitForBusBusy sample = (-1, 100) := by
  have fail : poll busPollLimit (fun n => (sample n).busy) = (false, 100) :=
    poll_eq_fail (by simpa [busPollLimit] using busy)
  rw [prvWaitForBusBusy, fail]

/-- The two ways the function returns: the bus-busy bit plays no part. -/
theorem wait_cases (sample : Nat → Sample) :
    (∃ k ≤ 100, (∀ n < k, (sample n).locked = true) ∧ (sample k).locked = false ∧
      prvWaitForBusBusy sample = (0, k)) ∨
    ((∀ n ≤ 100, (sample n).locked = true) ∧ prvWaitForBusBusy sample = (-1, 100)) := by
  rcases poll_cases busPollLimit (fun n => (sample n).busy) with ⟨k, hk, busy, free, -⟩ | ⟨busy, -⟩
  · simp only [Sample.busy_eq] at busy free
    exact .inl ⟨k, hk, busy, free, wait_pass hk busy free⟩
  · simp only [Sample.busy_eq] at busy
    exact .inr ⟨busy, wait_fail busy⟩

theorem guards_iff (sample : Nat → Sample) : Guards sample ↔ FirstFreeIdle sample := by
  classical
  constructor
  · intro guards k hk free busy
    by_contra set
    have code : prvWaitForBusBusy sample = (0, k) := wait_pass hk busy free
    -- no sample up to `k` is quiet, so the function should go on after `k`
    have early : ∀ n ≤ k, ¬ (sample n).quiet := by
      rintro n hn ⟨idle, unlocked⟩
      rcases Nat.lt_or_eq_of_le hn with lt | rfl
      · rw [busy n lt] at unlocked; cases unlocked
      · exact set idle
    by_cases h : ∃ m, m ≤ 100 ∧ (sample m).quiet
    · obtain ⟨bound, quiet⟩ := Nat.find_spec h
      have here := guards.1 _ bound quiet fun n hn q =>
        Nat.find_min h hn ⟨Nat.le_of_lt (Nat.lt_of_lt_of_le hn bound), q⟩
      rw [code, Prod.mk.injEq] at here
      exact early k (Nat.le_refl k) (here.2 ▸ quiet)
    · have none := guards.2 fun n hn q => h ⟨n, hn, q⟩
      rw [code] at none
      cases none
  · intro idle
    refine ⟨fun k hk quiet before => ?_, fun none => ?_⟩
    · refine wait_pass hk (fun n hn => ?_) quiet.2
      -- an earlier free sample would be the first, hence quiet
      by_contra free
      have h : ∃ m, (sample m).locked = false := ⟨n, by simpa using free⟩
      have first : Nat.find h ≤ n := Nat.find_min' h (by simpa using free)
      have quiet' := idle _ (by omega) (Nat.find_spec h) fun m hm => by simpa using Nat.find_min h hm
      exact before _ (by omega) ⟨quiet', Nat.find_spec h⟩
    · rcases wait_cases sample with ⟨k, hk, busy, free, -⟩ | ⟨-, code⟩
      · exact absurd ⟨idle k hk free busy, free⟩ (none k hk)
      · rw [code]

end Function

/-! The loop of a call -/

/-- The samples taken so far decide the function's result, whatever comes later. -/
def Decides (xs : List Sample) (value : Int) : Prop :=
  ∀ sample : Nat → Sample, (∀ n (h : n < xs.length), sample n = xs[n]) →
    prvWaitForBusBusy sample = (value, xs.length - 1)

/-- Where a call is in `prv_wait_for_bus_busy`, and what it has seen there. -/
structure Proc.Polled (l : Proc) : Prop where
  before : l.pc = .wakeup ∨ l.pc = .clkPoll → l.samples = [] ∧ l.locks = 0
  polling : ∀ i, l.pc = .busPoll i →
    l.samples.length = i.toNat ∧ i.toNat ≤ 100 ∧ (∀ x ∈ l.samples, x.locked = true) ∧ l.locks = 0
  inside : l.pc.inside = true → l.locks ≠ 0
  granted : l.pc = .lock ∨ l.locks ≠ 0 → Decides l.samples 0
  refused : l.pc = .leave .failed → l.locks = 0 → Decides l.samples (-1)

theorem Decides.snoc_pass {xs : List Sample} {x : Sample} (len : xs.length ≤ 100)
    (busy : ∀ y ∈ xs, y.locked = true) (free : x.locked = false) : Decides (xs ++ [x]) 0 := by
  intro sample agree
  have code : prvWaitForBusBusy sample = (0, xs.length) := by
    refine wait_pass len (fun n hn => ?_) ?_
    · rw [agree n (by simp; omega), List.getElem_append_left hn]
      exact busy _ (List.getElem_mem hn)
    · rw [agree xs.length (by simp), List.getElem_append_right (Nat.le_refl _)]
      simpa using free
  simpa using code

theorem Decides.snoc_fail {xs : List Sample} {x : Sample} (len : xs.length = 100)
    (busy : ∀ y ∈ xs ++ [x], y.locked = true) : Decides (xs ++ [x]) (-1) := by
  intro sample agree
  have code : prvWaitForBusBusy sample = (-1, 100) := by
    refine wait_fail fun n hn => ?_
    rw [agree n (by simp; omega)]
    exact busy _ (List.getElem_mem _)
  simpa [len] using code

theorem pollNext_pass {limit i : U8} {b : Bool} (h : pollNext limit i b = .pass) : b = false := by
  unfold pollNext at h
  split at h
  · split at h <;> cases h
  · simpa using ‹¬ b = true›

theorem pollNext_fail {limit i : U8} {b : Bool} (h : pollNext limit i b = .fail) : b = true ∧ i = limit := by
  unfold pollNext at h
  split at h
  · split at h
    · exact ⟨‹_›, ‹_›⟩
    · cases h
  · cases h

/-- After the loop the samples stay. -/
theorem Proc.Polled.after {l l' : Proc} (h : l.Polled) (locks : l.locks ≠ 0) (samples : l'.samples = l.samples)
    (same : l'.locks = l.locks) (beyond : l'.pc.inside = true ∨ l'.pc = .idle ∨ ∃ o, l'.pc = .leave o) :
    l'.Polled where
  before pc := by rcases beyond with o | o | ⟨_, o⟩ <;> rcases pc with pc | pc <;> rw [pc] at o <;> cases o
  polling i pc := by rcases beyond with o | o | ⟨_, o⟩ <;> rw [pc] at o <;> cases o
  inside _ := by rwa [same]
  granted _ := by rw [samples]; exact h.granted (.inr locks)
  refused _ free := by rw [same] at free; contradiction

/-- Every statement keeps the record of the loop. -/
theorem Proc.Polled.stmt {b : Bool} {l : Proc} {s : Shared} {i : Input} {m : Move Proc Shared Ret}
    (h : l.Polled) (hs : Stmt b l s i m) : m.loc.Polled := by
  have inside : ∀ pc, l.pc = pc → pc.inside = true → l.locks ≠ 0 := fun pc e i => h.inside (by rw [e]; exact i)
  cases hs with
  | call c pc =>
    exact ⟨fun _ => ⟨rfl, rfl⟩, by simp, by simp [Pc.inside], by simp, by simp⟩
  | wakeup pc =>
    exact ⟨fun _ => h.before (.inl pc), by simp, by simp [Pc.inside],
      by simp [Proc.goto, (h.before (.inl pc)).2], by simp⟩
  | spin pc => exact h
  | awake pc =>
    obtain ⟨none, free⟩ := h.before (.inr pc)
    refine ⟨by simp, ?_, by simp [Pc.inside], by simp [Proc.goto, free], by simp⟩
    rintro _ ⟨⟩
    simp [Proc.goto, none, free]
  | @again k j pc next =>
    obtain ⟨len, le, busy, free⟩ := h.polling k pc
    obtain ⟨held, more, rfl⟩ := pollNext_again next
    refine ⟨by simp, ?_, by simp [Pc.inside], by simp [free], by simp⟩
    rintro _ ⟨⟩
    have lt : k.toNat < 100 := Nat.lt_of_le_of_ne le fun e => more (BitVec.eq_of_toNat_eq e)
    have inc : (k + 1).toNat = k.toNat + 1 := by bv_omega
    refine ⟨?_, by omega, fun x hx => ?_, free⟩
    · rw [inc, ← len]; simp
    rcases List.mem_append.1 hx with old | new
    · exact busy x old
    · rw [List.mem_singleton] at new; rw [new]; exact held
  | @refused k pc next =>
    obtain ⟨len, le, busy, free⟩ := h.polling k pc
    obtain ⟨held, rfl⟩ := pollNext_fail next
    refine ⟨by simp, by simp, by simp [Pc.inside], by simp [free], fun _ _ => ?_⟩
    refine Decides.snoc_fail len fun x hx => ?_
    rcases List.mem_append.1 hx with old | new
    · exact busy x old
    · rw [List.mem_singleton] at new; rw [new]; exact held
  | @granted k pc next =>
    obtain ⟨len, le, busy, free⟩ := h.polling k pc
    refine ⟨by simp, by simp, by simp [Pc.inside], fun _ => ?_, by simp⟩
    exact Decides.snoc_pass (len ▸ le) busy (pollNext_pass next)
  | lock pc =>
    exact ⟨by simp, by simp, by simp, fun _ => h.granted (.inl pc), by simp⟩
  | setCnt ph pc => exact h.after (inside _ pc rfl) rfl rfl (.inl (inside_afterCnt l ph))
  | takeStop ph t ts pc => exact h.after (inside _ pc rfl) rfl rfl (.inl (inside_afterStop l ph))
  | start ph pc => cases ph <;> exact h.after (inside _ pc rfl) rfl rfl (.inl rfl)
  | elapsedStop ph pc => cases ph <;> exact h.after (inside _ pc rfl) rfl rfl (.inl rfl)
  | reinitRead o pc => cases o <;> exact h.after (inside _ pc rfl) rfl rfl (.inl rfl)
  | unlock o pc => exact h.after (inside _ pc rfl) rfl rfl (.inr (.inr ⟨o, rfl⟩))
  | leave o pc =>
    exact ⟨by simp, by simp, by simp [Pc.inside], fun taken => h.granted (.inr (by simpa [Proc.goto] using taken)), by simp⟩
  | setSlave pc | setLen ph pc | putReg pc | putLow pc | clearFifo pc | written pc | interrupted pc
  | elapsedLen pc | takeRead t ts pc | elapsedRead pc | reinitStop ph o pc =>
    exact h.after (inside _ pc rfl) rfl rfl (.inl rfl)

section Runs

variable {P : Type} [DecidableEq P]

/-- The polling statements of every call, in every run, compute
`prv_wait_for_bus_busy` on the samples they take. -/
theorem polled {c : Monitor.Cond Proc Shared Input Env} {g : State P} (h : Reachable c g) (p : P) :
    (g.proc p).Polled :=
  Monitor.locally (fun _ => ⟨by simp [initial], by simp [initial], by simp [initial, Pc.inside],
    by simp [initial], by simp [initial]⟩) h (fun _ _ _ _ _ hr k => k.stmt (Proc.run_stmt hr)) p

/-- A sample that finds the mutex free finds the bus idle. -/
def FreeIdle (g : State P) : Action P → Prop
  | .proc p _ => ∀ i, (g.proc p).pc = .busPoll i → g.lock = none → isSet g.shared.status i2cIrqBb = false
  | .env _ => True

/-- A call that has passed the guard has seen the bus idle. -/
def Proc.SawIdle (l : Proc) : Prop := l.pc = .lock ∨ l.locks ≠ 0 → ∃ x ∈ l.samples, x.busBusy = false

theorem Proc.SawIdle.stmt {l : Proc} {s : Shared} {b : Bool} {i : Input} {m : Move Proc Shared Ret} (h : l.SawIdle)
    (idle : ∀ i, l.pc = .busPoll i → b = false → isSet s.status i2cIrqBb = false)
    (hs : Stmt b l s i m) : m.loc.SawIdle := by
  -- the guard is passed only by `granted`, and the samples stay until the next call
  have keep : ∀ l' : Proc, l'.samples = l.samples → l'.locks = l.locks → l'.pc ≠ .lock → l'.SawIdle := by
    intro l' samples locks ne passed
    rw [samples]
    rcases passed with pc | taken
    · exact absurd pc ne
    · exact h (.inr (locks ▸ taken))
  have more : ∀ (x : Sample) (pc : Pc), pc ≠ .lock →
      ({ l with pc := pc, samples := l.samples ++ [x] } : Proc).SawIdle := by
    rintro x pc ne (e | taken)
    · exact absurd e ne
    · obtain ⟨y, mem, quiet⟩ := h (.inr taken)
      exact ⟨y, List.mem_append_left _ mem, quiet⟩
  cases hs with
  | call c pc => rintro (e | e) <;> simp at e
  | again pc next => exact more _ _ (by simp)
  | refused pc next => exact more _ _ (by simp)
  | granted pc next =>
    exact fun _ => ⟨⟨s.status, b⟩, by simp, idle _ pc (pollNext_pass next)⟩
  | lock pc => exact fun _ => h (.inl pc)
  | setCnt ph pc =>
    refine keep _ rfl rfl fun e => ?_
    have inside := inside_afterCnt l ph
    rw [show l.afterCnt ph = .lock from e] at inside
    cases inside
  | takeStop ph t ts pc =>
    refine keep _ rfl rfl fun e => ?_
    have inside := inside_afterStop l ph
    rw [show l.afterStop ph = .lock from e] at inside
    cases inside
  | start ph pc => cases ph <;> exact keep _ rfl rfl (by simp [afterStart])
  | elapsedStop ph pc => cases ph <;> exact keep _ rfl rfl (by simp [afterTimeout])
  | reinitRead o pc => cases o <;> exact keep _ rfl rfl (by simp [Proc.afterReinitRead])
  | spin pc => exact h
  | _ => exact keep _ rfl rfl (by simp)

/-- **The bus-busy guard.** The function meets its purpose exactly on the streams
whose first sample with a free mutex finds the bus idle; and in every run whose
samples are of this kind, no call takes `lock_bus` without having seen the bus
idle. -/
theorem bus_busy_guard : (∀ sample, Guards sample ↔ FirstFreeIdle sample) ∧
    ∀ g : State P, Reach step FreeIdle (initial P) g →
      ∀ p, (g.proc p).locks ≠ 0 → ∃ x ∈ (g.proc p).samples, x.busBusy = false := by
  refine ⟨guards_iff, fun g h p taken => ?_⟩
  have saw : ∀ p, (g.proc p).SawIdle := by
    refine Monitor.locally (fun _ => by simp [Proc.SawIdle, initial]) h fun g p i m ok hr k => ?_
    exact k.stmt (fun i pc free => ok i pc (by simpa using free)) (Proc.run_stmt hr)
  exact saw p (.inr taken)

end Runs

instance (g : State Unit) : (a : Action Unit) → Decidable (FreeIdle g a)
  | .proc p _ => inferInstanceAs (Decidable (∀ i, (g.proc p).pc = .busPoll i → g.lock = none → _))
  | .env _ => .isTrue trivial

/-- A write on an idle bus, up to `mutex_lock`. -/
def idleBus : List (Action Unit) :=
  .proc () (.call (.write 0x27 0xF4 0x76)) :: List.replicate 4 (.proc () .go)

theorem idleBus_guarded : ∃ g : State Unit, g.lock = some () ∧ ∃ x ∈ (g.proc ()).samples, x.busBusy = false := by
  obtain ⟨g, run, owner, taken⟩ := exists_reach step FreeIdle (fun g => g.lock = some () ∧ (g.proc ()).locks ≠ 0)
    (initial Unit) idleBus (by decide +kernel)
  exact ⟨g, owner, bus_busy_guard.2 g run () taken⟩

/-- A busy bus and a free mutex. -/
def busyForever : Nat → Sample := fun _ => ⟨i2cIrqBb, false⟩

def busyBus : List (Action Unit) :=
  .env (.bus true) :: .proc () (.call (.write 0x27 0xF4 0x76)) :: List.replicate 11 (.proc () .go)

/-- On a bus that is always busy the function returns 0 at once, and a call goes on
to its START. -/
theorem busyBus_not_guarded : (¬ ∀ sample, Guards sample) ∧
    ¬ ∀ g : State Unit, Reach step always (initial Unit) g →
      ∀ p, (g.proc p).locks ≠ 0 → ∃ x ∈ (g.proc p).samples, x.busBusy = false := by
  constructor
  · intro guards
    have set : Sample.busBusy ⟨i2cIrqBb, false⟩ = true := by decide
    have none : ∀ n ≤ 100, ¬ (busyForever n).quiet := fun n _ q => by cases set.symm.trans q.1
    have code : prvWaitForBusBusy busyForever = (0, 0) := wait_pass (by omega) (by omega) rfl
    have value := (guards busyForever).2 none
    rw [code] at value
    cases value
  · intro all
    obtain ⟨g, run, taken, started, busy⟩ := exists_reach step always
      (fun g => (g.proc ()).locks ≠ 0 ∧ g.shared.nstart = 1 ∧ ∀ x ∈ (g.proc ()).samples, x.busBusy = true)
      (initial Unit) busyBus (by decide +kernel)
    obtain ⟨x, mem, idle⟩ := all g run () taken
    rw [busy x mem] at idle
    cases idle

end Beaglebone.I2c
