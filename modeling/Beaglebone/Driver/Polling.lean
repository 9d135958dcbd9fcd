import Beaglebone.Driver.Init
import Beaglebone.I2c.BusBusy

/-!
# Polling is bounded

Three loops poll the hardware before a START. They should end after a number of polls
that no register stream can change, and the operation should fail when the awaited
value is nowhere in the stream. Streams are infinite: a value that comes after the last
poll is in the stream, and the operation may then succeed or fail. `prv_reset_i2c` and
`prv_wait_for_bus_busy` count their polls; `prv_wakeup` does not. A stream of SYSS in
which no reset ends is not reported (`init_all_or_nothing_iff`), and a stream of samples
in which the bus is never idle goes unnoticed (`bus_busy_guard`). `polling_bounded_iff`
says for which streams all is well.
-/

namespace Beaglebone.Driver

open Machine I2c Script

/-- What the polled registers return, and what `lock_bus` does, in one operation. -/
structure Streams where
  clkctrl : Nat → U32
  sample : Nat → Sample

/-- `prv_wakeup` after its write: the index of the last of at most `fuel` samples of
the clock control register, if the loop ends with it. -/
def prvWakeupPolls (clkctrl : Nat → U32) (fuel : Nat) : Option Nat :=
  spin (fun n => prvIsClkDisabled (clkctrl n) != 0) fuel

/-- What `cotti_i2c_write` and `cotti_i2c_read` return, when `rest` is what they
return from `mutex_lock` on; `none` while they poll the clock. -/
def callValue (s : Streams) (rest : Int) (fuel : Nat) : Option Int := do
  let _ ← prvWakeupPolls s.clkctrl fuel
  pure (if (prvWaitForBusBusy s.sample).1 ≠ 0 then -1 else rest)

/-- What `cotti_i2c_init` returns; `none` while it polls the clock. -/
def initValue (s : Streams) (x : I2cInit) (fuel : Nat) : Option Int :=
  if x.Maps then do
    let _ ← prvWakeupPolls s.clkctrl fuel
    pure (cottiI2cInit x).val
  else some (cottiI2cInit x).val

/-- No value of the clock control register says that the clock runs. -/
def Streams.ClkNever (s : Streams) : Prop := ∀ k, prvIsClkDisabled (s.clkctrl k) ≠ 0

/-- No value of SYSS says that the reset is over. -/
def ResetNever (syss : Nat → U8) : Prop := ∀ k, prvIsResetting (syss k) ≠ 0

/-- No sample finds the bus idle and the mutex free. -/
def Streams.BusNever (s : Streams) : Prop := ∀ k, ¬ (s.sample k).quiet

/-- Every loop ends within `n` polls, and an operation whose awaited value is nowhere in
the stream fails. -/
structure Bounded (n : Nat) (s : Streams) (x : I2cInit) : Prop where
  wakeup : ∃ k < n, prvWakeupPolls s.clkctrl n = some k
  reset : (prvResetI2c x.syss).2 < n
  bus : (prvWaitForBusBusy s.sample).2 < n
  clkNever : s.ClkNever → (∀ rest, callValue s rest n = some (-1)) ∧
    (x.Maps → ∃ v, initValue s x n = some v ∧ v ≠ 0)
  resetNever : x.Maps → ResetNever x.syss → ∃ v, initValue s x n = some v ∧ v ≠ 0
  busNever : s.BusNever → ∀ rest, callValue s rest n = some (-1)

section Bound

variable {s : Streams} {x : I2cInit} {n k : Nat}

theorem reset_polls_le (syss : Nat → U8) : (prvResetI2c syss).2 ≤ 10 := by
  have le := poll_le 10 fun n => prvIsResetting (syss n) != 0
  unfold prvResetI2c
  split <;> next he => rw [he] at le; exact le

theorem bus_polls_le (sample : Nat → Sample) : (prvWaitForBusBusy sample).2 ≤ 100 := by
  rcases wait_cases sample with ⟨k, hk, -, -, he⟩ | ⟨-, he⟩ <;> rw [he]
  exact hk

theorem wakeup_iff : (∃ k < n, prvWakeupPolls s.clkctrl n = some k) ↔
    ∃ k < n, prvIsClkDisabled (s.clkctrl k) = 0 := by
  unfold prvWakeupPolls
  rw [spin_isSome_iff]
  simp

theorem callValue_of (wakeup : prvWakeupPolls s.clkctrl n = some k) (rest : Int) :
    callValue s rest n = some (if (prvWaitForBusBusy s.sample).1 ≠ 0 then -1 else rest) := by
  rw [callValue, wakeup]
  rfl

theorem initValue_of (wakeup : prvWakeupPolls s.clkctrl n = some k) :
    initValue s x n = some (cottiI2cInit x).val := by
  unfold initValue
  rw [wakeup]
  split <;> rfl

/-- A call that goes past the guard may succeed. -/
theorem refused_iff (wakeup : prvWakeupPolls s.clkctrl n = some k) :
    (∀ rest, callValue s rest n = some (-1)) ↔ ∀ m ≤ 100, (s.sample m).locked = true := by
  rcases wait_cases s.sample with ⟨j, hj, -, free, he⟩ | ⟨held, he⟩
  · refine ⟨fun all => ?_, fun held => ?_⟩
    · have zero := all 0
      rw [callValue_of wakeup, he] at zero
      cases zero
    · rw [held j hj] at free
      cases free
  · refine ⟨fun _ => held, fun _ rest => ?_⟩
    rw [callValue_of wakeup, he]
    rfl

theorem init_val_of_reset (maps : x.Maps) (never : ResetNever x.syss) : (cottiI2cInit x).val = 0 := by
  have fails : (prvResetI2c x.syss).1 ≠ 0 := fun zero => by
    obtain ⟨k, -, ended⟩ := (reset_zero_iff _).1 zero
    exact never k ended
  obtain ⟨w, -, result⟩ := init_maps maps {} trivial
  rwa [Configured, if_pos fails] at result

end Bound

/-- **Bounded polling.** Whatever bound above 100 is asked for, the loops end within it
and a stream without the awaited value is reported exactly if the clock is found running
within the bound, some value of SYSS in the whole stream, polled or not, says that the
reset is over (if SYSS is polled), and some sample of the whole stream finds the bus idle
and the mutex free or the first 101 find the mutex held. -/
theorem polling_bounded_iff (n : Nat) (s : Streams) (x : I2cInit) : Bounded (101 + n) s x ↔
    (∃ k < 101 + n, prvIsClkDisabled (s.clkctrl k) = 0) ∧
    (x.Maps → ∃ k, prvIsResetting (x.syss k) = 0) ∧
    ((∃ k, (s.sample k).quiet) ∨ ∀ k ≤ 100, (s.sample k).locked = true) := by
  constructor
  · intro h
    obtain ⟨k, -, wakeup⟩ := h.wakeup
    refine ⟨wakeup_iff.1 h.wakeup, fun maps => ?_, ?_⟩
    · by_contra never
      have never : ResetNever x.syss := fun k ended => never ⟨k, ended⟩
      obtain ⟨v, value, ne⟩ := h.resetNever maps never
      rw [initValue_of wakeup, init_val_of_reset maps never] at value
      cases value
      exact ne rfl
    · by_cases quiet : ∃ k, (s.sample k).quiet
      · exact .inl quiet
      · exact .inr ((refused_iff wakeup).1 (h.busNever fun k q => quiet ⟨k, q⟩))
  · rintro ⟨running, ended, bus⟩
    have wakeup := wakeup_iff.2 running
    obtain ⟨k, -, polled⟩ := wakeup
    obtain ⟨j, lt, enabled⟩ := running
    constructor
    · exact wakeup_iff.2 ⟨j, lt, enabled⟩
    · exact Nat.lt_of_le_of_lt (reset_polls_le _) (by omega)
    · exact Nat.lt_of_le_of_lt (bus_polls_le _) (by omega)
    · exact fun never => absurd enabled (never j)
    · intro maps never
      obtain ⟨i, done⟩ := ended maps
      exact absurd done (never i)
    · intro never
      rcases bus with ⟨i, quiet⟩ | held
      · exact absurd quiet (never i)
      · exact (refused_iff polled).2 held

/-- The clock never runs. -/
def deadClock : Streams where
  clkctrl := fun _ => clkIdlest
  sample := fun _ => ⟨0, false⟩

/-- No number of polls is enough for every stream. -/
theorem deadClock_not_bounded : ¬ ∃ n, ∀ s x, Bounded n s x := by
  rintro ⟨n, all⟩
  obtain ⟨k, -, running⟩ := wakeup_iff.1 (all deadClock goodProbe.i2c).wakeup
  exact absurd running (by decide : prvIsClkDisabled clkIdlest ≠ 0)

section Runs

variable {P : Type} [DecidableEq P]

theorem samples_stmt {b : Bool} {l : Proc} {s : Shared} {i : Input} {m : Move Proc Shared Ret} (polled : l.Polled)
    (le : l.samples.length ≤ 101) (hs : Stmt b l s i m) : m.loc.samples.length ≤ 101 := by
  have one : ∀ j x, l.pc = .busPoll j → (l.samples ++ [x]).length ≤ 101 := by
    intro j x pc
    obtain ⟨len, bound, -, -⟩ := polled.polling j pc
    rw [List.length_append, len]
    exact Nat.succ_le_succ bound
  cases hs with
  | call => exact Nat.zero_le _
  | again pc => exact one _ _ pc
  | refused pc => exact one _ _ pc
  | granted pc => exact one _ _ pc
  | start ph => cases ph <;> exact le
  | _ => exact le

/-- The calls of the I2C driver run the same loop: in every run, a call takes at most
101 samples of the bus. -/
theorem samples_le {c : Monitor.Cond Proc Shared Input Env} {g : I2c.State P} (h : Reachable c g) (p : P) :
    (g.proc p).samples.length ≤ 101 := by
  have start : ∀ p, ((initial P).proc p).Polled ∧ ((initial P).proc p).samples.length ≤ 101 :=
    fun p => ⟨polled (c := c) .start p, Nat.zero_le _⟩
  have both : ∀ p, (g.proc p).Polled ∧ (g.proc p).samples.length ≤ 101 := by
    refine Monitor.locally (K := fun l => l.Polled ∧ l.samples.length ≤ 101) start h fun _ _ _ _ _ hr k => ?_
    have stmt := Proc.run_stmt hr
    exact ⟨k.1.stmt stmt, samples_stmt k.1 k.2 stmt⟩
  exact (both p).2

end Runs

end Beaglebone.Driver
