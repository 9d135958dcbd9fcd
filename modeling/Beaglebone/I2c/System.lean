import Beaglebone.I2c.Handler

/-!
# The I2C driver as a system of processes

Any number of processes in `cotti_i2c_write` and `cotti_i2c_read`, the mutex
`lock_bus`, and the handler with the controller as the environment. `Stmt` lists
what one statement of a call can do; every proof about the calls is a case
analysis on it (`Proc.run_stmt`). The calls take and release the mutex in step
with `Pc.inside` (`disciplined`), and each one releases it as often as it has taken it
(`balanced`), for every run and without any assumption on the controller.
-/

namespace Beaglebone.I2c

open Machine

/-- What one statement does: the statement, its input, and the move it makes. -/
inductive Stmt (b : Bool) (l : Proc) (s : Shared) : Input → Move Proc Shared Ret → Prop where
  | call (c : Call) (pc : l.pc = .idle) :
      Stmt b l s (.call c) { loc := { pc := .wakeup, call := c }, shared := s }
  | wakeup (pc : l.pc = .wakeup) : Stmt b l s .go { loc := l.goto .clkPoll, shared := s }
  | spin (pc : l.pc = .clkPoll) : Stmt b l s .spin { loc := l, shared := s }
  | awake (pc : l.pc = .clkPoll) : Stmt b l s .go { loc := l.goto (.busPoll 0), shared := s }
  | again {k j : U8} (pc : l.pc = .busPoll k) (next : pollNext busPollLimit k b = .again j) :
      Stmt b l s .go { loc := { l with pc := .busPoll j, samples := l.samples ++ [⟨s.status, b⟩] },
                       shared := s }
  | refused {k : U8} (pc : l.pc = .busPoll k) (next : pollNext busPollLimit k b = .fail) :
      Stmt b l s .go
        { loc := { l with pc := .leave .failed, samples := l.samples ++ [⟨s.status, b⟩] },
          shared := s }
  | granted {k : U8} (pc : l.pc = .busPoll k) (next : pollNext busPollLimit k b = .pass) :
      Stmt b l s .go { loc := { l with pc := .lock, samples := l.samples ++ [⟨s.status, b⟩] },
                       shared := s }
  | lock (pc : l.pc = .lock) :
      Stmt b l s .go { loc := { l with pc := .setSlave, locks := l.locks + 1 },
                       shared := { s with pushed := [] }, op := .acquire }
  | setSlave (pc : l.pc = .setSlave) :
      Stmt b l s .go { loc := l.goto (.setLen .tx),
                       shared := { s with sa := l.call.slaveAddress.setWidth 32 } }
  | setLen (ph : Phase) (pc : l.pc = .setLen ph) :
      Stmt b l s .go { loc := l.goto (.setCnt ph), shared := { s with gLen := l.call.count ph } }
  | setCnt (ph : Phase) (pc : l.pc = .setCnt ph) :
      Stmt b l s .go { loc := l.goto (l.afterCnt ph),
                       shared := { s with cnt := l.call.count ph } }
  | putReg (pc : l.pc = .putReg) :
      Stmt b l s .go { loc := l.goto .putLow, shared := { s with gWrite1 := l.call.highByte } }
  | putLow (pc : l.pc = .putLow) :
      Stmt b l s .go { loc := l.goto .clearFifo, shared := { s with gWrite0 := l.call.lowByte } }
  | clearFifo (pc : l.pc = .clearFifo) :
      Stmt b l s .go { loc := l.goto (.start .tx), shared := { s with data := 0, dataBy := 0 } }
  | start (ph : Phase) (pc : l.pc = .start ph) :
      Stmt b l s .go { loc := (l.issued s.next ph).goto (afterStart ph), shared := s.issue ph }
  | written (pc : l.pc = .waitLen) (len : s.gLen = 0) :
      Stmt b l s .go { loc := l.goto (.waitStop .tx), shared := s }
  | interrupted (pc : l.pc = .waitLen) (len : s.gLen ≠ 0) :
      Stmt b l s .signal { loc := l.goto (.waitStop .tx), shared := s }
  | elapsedLen (pc : l.pc = .waitLen) (len : s.gLen ≠ 0) :
      Stmt b l s .timeout { loc := l.goto (.reinitStop .tx .failed), shared := s }
  | takeRead (t : Nat) (ts : List Nat) (pc : l.pc = .waitRead) (comp : s.compRead = t :: ts) :
      Stmt b l s .go { loc := { l with pc := .waitStop .rx, gotRead := some t },
                       shared := { s with compRead := ts, taken := s.taken ++ [(t, l.rx)] } }
  | elapsedRead (pc : l.pc = .waitRead) (comp : s.compRead = []) :
      Stmt b l s .timeout { loc := l.goto (.reinitRead .failed), shared := s }
  | takeStop (ph : Phase) (t : Nat) (ts : List Nat) (pc : l.pc = .waitStop ph)
      (comp : s.compStop = t :: ts) :
      Stmt b l s .go { loc := { l with pc := l.afterStop ph, gotStop := some t },
                       shared := { s with compStop := ts,
                                          taken := s.taken ++ [(t, l.startOf ph)] } }
  | elapsedStop (ph : Phase) (pc : l.pc = .waitStop ph) (comp : s.compStop = []) :
      Stmt b l s .timeout { loc := l.goto (afterTimeout ph), shared := s }
  | reinitRead (o : Outcome) (pc : l.pc = .reinitRead o) :
      Stmt b l s .go { loc := l.goto (Proc.afterReinitRead o), shared := { s with compRead := [] } }
  | reinitStop (ph : Phase) (o : Outcome) (pc : l.pc = .reinitStop ph o) :
      Stmt b l s .go { loc := l.goto (.unlock o), shared := { s with compStop := [] } }
  | unlock (o : Outcome) (pc : l.pc = .unlock o) :
      Stmt b l s .go { loc := { l with pc := .leave o, unlocks := l.unlocks + 1, sent := s.pushed },
                       shared := s, op := .release }
  | leave (o : Outcome) (pc : l.pc = .leave o) :
      Stmt b l s .go { loc := l.goto .idle, shared := s, out := some (l.ret s o) }

theorem Call.count_le (c : Call) (ph : Phase) : c.count ph ≤ 2 := by
  cases c <;> simp [Call.count]

/-- A wait either consumes the first completion or, when there is none, elapses. -/
theorem Proc.wait_cases {comp : List Nat} {taken : Nat → List Nat → Move Proc Shared Ret}
    {elapsed m : Move Proc Shared Ret} {i : Input} (h : Proc.wait comp taken elapsed i = some m) :
    (i = .go ∧ ∃ t ts, comp = t :: ts ∧ m = taken t ts) ∨ (i = .timeout ∧ comp = [] ∧ m = elapsed) := by
  cases i <;> simp only [Proc.wait, reduceCtorEq] at h
  · cases comp with
    | nil => cases h
    | cons t ts => exact .inl ⟨rfl, t, ts, rfl, (Option.some.inj h).symm⟩
  · split at h
    · next empty =>
      exact .inr ⟨rfl, List.isEmpty_iff.1 empty, (Option.some.inj h).symm⟩
    · cases h

/-- **Inversion**: a statement that runs is one of `Stmt`. -/
theorem Proc.run_stmt {b : Bool} {l : Proc} {s : Shared} {i : Input} {m : Move Proc Shared Ret}
    (h : Proc.run b l s i = some m) : Stmt b l s i m := by
  unfold Proc.run at h
  split at h
  case h_1 pc => cases h; exact .call _ pc
  case h_2 pc => cases h; exact .wakeup pc
  case h_3 pc => cases h; exact .spin pc
  case h_4 pc => cases h; exact .awake pc
  case h_5 k pc =>
    simp only [Sample.busy_eq] at h
    split at h
    · next next => cases h; exact .again pc next
    · next next => cases h; exact .refused pc next
    · next next => cases h; exact .granted pc next
  case h_6 pc => cases h; exact .lock pc
  case h_7 pc => cases h; exact .setSlave pc
  case h_8 ph pc =>
    simp only [Call.count_le, if_true, Option.some.injEq] at h
    subst h
    exact .setLen ph pc
  case h_9 ph pc => cases h; exact .setCnt ph pc
  case h_10 pc => cases h; exact .putReg pc
  case h_11 pc => cases h; exact .putLow pc
  case h_12 pc => cases h; exact .clearFifo pc
  case h_13 ph pc => cases h; exact .start ph pc
  case h_14 pc => split at h <;> cases h; exact .written pc ‹_›
  case h_15 pc => split at h <;> cases h; exact .interrupted pc ‹_›
  case h_16 pc => split at h <;> cases h; exact .elapsedLen pc ‹_›
  case h_17 pc =>
    rcases Proc.wait_cases h with ⟨rfl, t, ts, comp, rfl⟩ | ⟨rfl, comp, rfl⟩
    · exact .takeRead t ts pc comp
    · exact .elapsedRead pc comp
  case h_18 ph pc =>
    rcases Proc.wait_cases h with ⟨rfl, t, ts, comp, rfl⟩ | ⟨rfl, comp, rfl⟩
    · exact .takeStop ph t ts pc comp
    · exact .elapsedStop ph pc comp
  case h_19 o pc => cases h; exact .reinitRead o pc
  case h_20 ph o pc => cases h; exact .reinitStop ph o pc
  case h_21 o pc => cases h; exact .unlock o pc
  case h_22 o pc => cases h; exact .leave o pc
  case h_23 => cases h

/-- The driver as a monitor. -/
def i2c : Monitor Proc Shared Input Env Ret where
  run := Proc.run
  env := Shared.env
  inside l := l.pc.inside

theorem inside_afterCnt (l : Proc) (ph : Phase) : (l.afterCnt ph).inside = true := by
  unfold Proc.afterCnt; split
  · rfl
  · split <;> rfl

theorem inside_afterStop (l : Proc) (ph : Phase) : (l.afterStop ph).inside = true := by
  unfold Proc.afterStop; split
  · rfl
  · split <;> rfl

@[simp] theorem goto_pc (l : Proc) (pc : Pc) : (l.goto pc).pc = pc := rfl

theorem disciplined : i2c.Disciplined where
  keep := by
    intro b l s i m h hop
    cases Proc.run_stmt h with
    | lock | unlock => cases hop
    | setCnt ph pc =>
      show (l.afterCnt ph).inside = l.pc.inside
      rw [inside_afterCnt, pc]; rfl
    | takeStop ph t ts pc =>
      show (l.afterStop ph).inside = l.pc.inside
      rw [inside_afterStop, pc]; rfl
    | start ph pc | elapsedStop ph pc => cases ph <;> simp [i2c, pc, afterStart, afterTimeout, Pc.inside]
    | reinitRead o pc => cases o <;> simp [i2c, pc, Proc.afterReinitRead, Pc.inside]
    | _ => simp_all [i2c, Pc.inside]
  acquire := by
    intro b l s i m h hop
    cases Proc.run_stmt h with
    | lock pc => exact ⟨by simp [i2c, pc, Pc.inside], rfl⟩
    | _ => cases hop
  release := by
    intro b l s i m h hop
    cases Proc.run_stmt h with
    | unlock o pc => exact ⟨by simp [i2c, pc, Pc.inside], rfl⟩
    | _ => cases hop
  frame := by
    intro b l s i m h hop out
    cases Proc.run_stmt h with
    | call | wakeup | spin | awake | again | refused | granted | leave => rfl
    | _ => simp_all [i2c, Pc.inside]

/-- How often a call has taken and released the mutex, by where it is. -/
def Proc.Paired (l : Proc) : Prop :=
  match l.pc with
  | .idle => True
  | .leave _ => l.locks = l.unlocks ∧ l.locks ≤ 1
  | pc => l.locks = (if pc.inside then 1 else 0) ∧ l.unlocks = 0

/-- A returned call has released the mutex as often as it has taken it, at most once. -/
def Ret.Balanced (r : Ret) : Prop := r.locks = r.unlocks ∧ r.locks ≤ 1

theorem Proc.paired_inside {l : Proc} (inside : l.pc.inside = true) : l.Paired ↔ l.locks = 1 ∧ l.unlocks = 0 := by
  unfold Proc.Paired
  split
  · next pc => simp [pc, Pc.inside] at inside
  · next pc => simp [pc, Pc.inside] at inside
  · simp [inside]

theorem Proc.Paired.stmt {b : Bool} {l : Proc} {s : Shared} {i : Input} {m : Move Proc Shared Ret} (h : l.Paired)
    (hs : Stmt b l s i m) : m.loc.Paired := by
  -- within the critical section nothing is counted
  have within : ∀ l' : Proc, l.pc.inside = true → l'.pc.inside = true → l'.locks = l.locks →
      l'.unlocks = l.unlocks → l'.Paired := by
    intro l' was is locks unlocks
    rw [Proc.paired_inside is, locks, unlocks]
    exact (Proc.paired_inside was).1 h
  cases hs with
  | call => exact ⟨rfl, rfl⟩
  | leave => trivial
  | unlock o pc =>
    obtain ⟨locks, unlocks⟩ := (Proc.paired_inside (by rw [pc]; rfl)).1 h
    exact ⟨by rw [locks, unlocks], Nat.le_of_eq locks⟩
  | wakeup pc | awake pc | again pc | granted pc | lock pc =>
    simp only [Proc.Paired, pc, Pc.inside] at h
    simpa [Proc.Paired, Proc.goto, Pc.inside] using h
  | refused pc =>
    simp only [Proc.Paired, pc, Pc.inside] at h
    simp [Proc.Paired, h]
  | spin => exact h
  | setCnt ph pc => exact within _ (by rw [pc]; rfl) (inside_afterCnt l ph) rfl rfl
  | takeStop ph t ts pc => exact within _ (by rw [pc]; rfl) (inside_afterStop l ph) rfl rfl
  | start ph pc | elapsedStop ph pc => cases ph <;> exact within _ (by rw [pc]; rfl) rfl rfl rfl
  | reinitRead o pc => cases o <;> exact within _ (by rw [pc]; rfl) rfl rfl rfl
  | setSlave pc | setLen ph pc | putReg pc | putLow pc | clearFifo pc | written pc | interrupted pc
  | elapsedLen pc | takeRead t ts pc | elapsedRead pc | reinitStop ph o pc =>
    exact within _ (by rw [pc]; rfl) rfl rfl rfl

/-- The verification conditions of the counts, in every run. -/
theorem paired_rules (c : Monitor.Cond Proc Shared Input Env) :
    i2c.Rules c (fun o _ => ∀ l, o = some l → l.Paired) (fun l _ => l.Paired) Ret.Balanced where
  env h _ _ := h
  bystander _ _ _ k _ _ := k
  own h _ _ hs _ := by
    rintro _ ⟨⟩
    exact (h _ rfl).stmt (Proc.run_stmt hs)
  leave h _ _ hs _ := ⟨nofun, (h _ rfl).stmt (Proc.run_stmt hs)⟩
  enter _ _ k _ hs _ := by
    rintro _ ⟨⟩
    exact k.stmt (Proc.run_stmt hs)
  outside _ _ k _ hs _ := k.stmt (Proc.run_stmt hs)
  others _ _ _ _ k := k
  out := by
    intro o b l s i m r _ _ k _ hs hr
    cases Proc.run_stmt hs with
    | leave oc pc =>
      have paired := k (by simp [i2c, pc, Pc.inside])
      simp only [Proc.Paired, pc] at paired
      cases hr
      exact paired
    | _ => cases hr

section Runs

variable {P : Type}

abbrev State (P : Type) := Global P Proc Shared Ret

abbrev Action (P : Type) := Act P Input Env

/-- No call in progress, no interrupt pending. -/
def initial (P : Type) : State P := ⟨fun _ => {}, none, {}, []⟩

theorem held_initial : i2c.Held (initial P) := by simp [Monitor.Held, initial, i2c, Pc.inside]

variable [DecidableEq P]

def step : State P → Action P → Option (State P) := i2c.step

/-- The states of the runs that meet a condition. -/
abbrev Reachable (c : Monitor.Cond Proc Shared Input Env) (g : State P) : Prop :=
  Reach step (i2c.ok c) (initial P) g

/-- In every run, the processes inside are those that hold `lock_bus`. -/
theorem held {c : Monitor.Cond Proc Shared Input Env} {g : State P} (h : Reachable c g) : i2c.Held g :=
  Monitor.Held.reach disciplined held_initial h

/-- In every run, what has been taken has been released when a call has returned, and
`lock_bus` is free when none is in progress. -/
theorem balanced {c : Monitor.Cond Proc Shared Input Env} {g : State P} (h : Reachable c g) :
    (∀ r ∈ g.log, r.Balanced) ∧ ((∀ p, (g.proc p).pc = .idle) → g.lock = none) := by
  have sound := (paired_rules c).sound disciplined
    ⟨held_initial, nofun, fun _ _ => trivial, by simp [initial]⟩ h
  refine ⟨sound.log, fun idle => ?_⟩
  cases free : g.lock with
  | none => rfl
  | some p =>
    have inside := (held h p).2 free
    simp [i2c, idle p, Pc.inside] at inside

end Runs

end Beaglebone.I2c
