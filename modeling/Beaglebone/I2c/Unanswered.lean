import Beaglebone.I2c.Slave
import Beaglebone.Machine.Client

/-!
# A bus on which nobody answers

A NACK only reaches the kernel log, so that the driver learns of a missing device from
what the controller does not raise. While the controller raises no ARDY (`mute`),
`comp_stop` is not completed and every call runs into the timeout of a wait: whatever
the other processes, signals and interrupts do, a call that returns has returned -1
(`calls_fail`). After an ARDY it would not: a write whose NACK has been logged returns 0
then.
-/

namespace Beaglebone.I2c

open Machine

/-- The controller ends a transmission. -/
def Env.stops : Env → Bool
  | .ardy _ => true
  | _ => false

/-- The runs in which it ends none. -/
def mute : Monitor.Cond Proc Shared Input Env where
  env _ _ e := e.stops = false

instance (o : Option Proc) (s : Shared) (e : Env) : Decidable (mute.env o s e) :=
  inferInstanceAs (Decidable (_ = _))

instance (l : Proc) (s : Shared) (e : Env) : Decidable (mute.bystander l s e) := .isTrue trivial

instance (l : Proc) (s : Shared) (i : Input) : Decidable (mute.proc l s i) := .isTrue trivial

/-- `comp_stop` is not complete, nor will the handler complete it. -/
structure Shared.Unanswered (s : Shared) : Prop where
  stop : s.compStop = []
  due : s.ardyDue = false

/-- The call is past its waits. -/
def Pc.succeeds : Pc → Bool
  | .reinitRead .done | .reinitStop _ .done | .unlock .done | .leave .done => true
  | _ => false

/-- A call that returns later in the history has failed. -/
def Failing {P : Type} (h : List (Event P Call Int)) : Prop :=
  h.Pairwise fun e e' => ∀ p c v, e = .call p c → e' = .ret p v → v = -1

section

variable {s s' : Shared} {e : Env} {b : Bool} {l : Proc} {i : Input} {m : Move Proc Shared Ret}

theorem Shared.Unanswered.env (h : s.Unanswered) (hs : EnvStep s e s') (quiet : e.stops = false) : s'.Unanswered := by
  have none : ∀ t, e ≠ .ardy t := by
    rintro t rfl
    cases quiet
  constructor
  · cases hs with
    | stop irq isr bit =>
      have due := (ardyDue_stop (c := []) isr bit).1
      rw [h.due] at due
      cases due
    | _ => exact h.stop
  · by_contra due
    have before := hs.ardyDue none (by simpa using due)
    rw [h.due] at before
    cases before

/-- A statement of a call that is not past its waits: it does not get there, and what it
returns is -1. -/
theorem Stmt.unanswered (h : s.Unanswered) (hs : Stmt b l s i m) : m.shared.Unanswered ∧
    (l.pc.succeeds = false → m.loc.pc.succeeds = false) ∧
    ∀ r, m.out = some r → l.pc.succeeds = false → r.value = -1 := by
  cases hs with
  | takeStop ph t ts pc comp =>
    rw [h.stop] at comp
    cases comp
  | leave o pc =>
    refine ⟨h, fun _ => rfl, fun r out failed => ?_⟩
    cases out
    cases o with
    | done => simp [pc, Pc.succeeds] at failed
    | failed => rfl
  | reinitStop ph o pc =>
    refine ⟨⟨rfl, h.due⟩, ?_, fun _ out => by cases out⟩
    cases o with
    | done => simp [pc, Pc.succeeds]
    | failed => exact fun _ => rfl
  | reinitRead o pc | unlock o pc =>
    refine ⟨⟨h.stop, h.due⟩, ?_, fun _ out => by cases out⟩
    cases o with
    | done => simp [pc, Pc.succeeds]
    | failed => exact fun _ => rfl
  | setCnt ph pc =>
    refine ⟨⟨h.stop, h.due⟩, fun _ => ?_, fun _ out => by cases out⟩
    show (l.afterCnt ph).succeeds = false
    unfold Proc.afterCnt
    split
    · rfl
    · split <;> rfl
  | start ph pc | elapsedStop ph pc =>
    refine ⟨⟨h.stop, h.due⟩, fun _ => ?_, fun _ out => by cases out⟩
    cases ph <;> rfl
  | spin pc => exact ⟨h, id, fun _ out => by cases out⟩
  | _ => exact ⟨⟨h.stop, h.due⟩, fun _ => rfl, fun _ out => by cases out⟩

/-- A statement begins a call, or it shows at most a result. -/
theorem Stmt.shows (hs : Stmt b l s i m) :
    (∃ c, i.invocation = some c ∧ m.out = none ∧ m.loc.pc.succeeds = false) ∨ i.invocation = none := by
  cases hs with
  | call c pc => exact .inl ⟨c, rfl, rfl, rfl⟩
  | _ => exact .inr rfl

end

section Runs

variable {P : Type} {h : List (Event P Call Int)}

theorem Failing.call (failing : Failing h) (p : P) (c : Call) : Failing (h ++ [.call p c]) := by
  refine List.pairwise_append.2 ⟨failing, List.pairwise_singleton .., ?_⟩
  intro e _ e' last p' c' v _ ret
  rw [List.mem_singleton.1 last] at ret
  cases ret

theorem Failing.ret (failing : Failing h) {p : P} {v : Int} (value : ∀ c, .call p c ∈ h → v = -1) :
    Failing (h ++ [.ret p v]) := by
  refine List.pairwise_append.2 ⟨failing, List.pairwise_singleton .., ?_⟩
  intro e mem e' last p' c' v' call ret
  subst call ret
  obtain ⟨rfl, rfl⟩ := Event.ret.inj (List.mem_singleton.1 last)
  exact value c' mem

variable [DecidableEq P] {g₀ g g' : State P}

/-- A history since the moment at which the controller fell silent, and its end. -/
structure Silent (h : List (Event P Call Int)) (g : State P) : Prop where
  pending : g.shared.Unanswered
  ending : ∀ p c, .call p c ∈ h → (g.proc p).pc.succeeds = false
  failing : Failing h

theorem Silent.step (silent : Silent h g) {a : Action P} (ok : i2c.ok mute g a) (hs : i2c.step g a = some g') :
    Silent (h ++ i2c.events Input.invocation Ret.value g a) g' := by
  cases a with
  | env e =>
    obtain ⟨s, he, rfl⟩ := Monitor.step_env hs
    rw [Monitor.events, List.append_nil]
    exact ⟨silent.pending.env (env_step he) ok.1, silent.ending, silent.failing⟩
  | proc p i =>
    obtain ⟨m, run, proc, shared, -⟩ := Monitor.step_proc hs
    have stmt := Proc.run_stmt run
    obtain ⟨pending, stays, value⟩ := stmt.unanswered silent.pending
    have self : g'.proc p = m.loc := by rw [proc, upd_same]
    have old : ∀ q c, .call q c ∈ h → (g'.proc q).pc.succeeds = false := by
      intro q c mem
      by_cases same : q = p
      · subst same
        rw [self]
        exact stays (silent.ending q c mem)
      · rw [proc, upd_other _ _ same]
        exact silent.ending q c mem
    rw [Monitor.events_proc run]
    rcases stmt.shows with ⟨c, begins, none, fresh⟩ | none
    · -- a call begins
      simp only [begins, none, Option.map_some, Option.toList_some, Option.map_none, Option.toList_none, List.append_nil]
      refine ⟨shared ▸ pending, fun q c' mem => ?_, silent.failing.call p c⟩
      rcases List.mem_append.1 mem with mem | last
      · exact old q c' mem
      · obtain ⟨rfl, -⟩ := Event.call.inj (List.mem_singleton.1 last)
        rw [self]
        exact fresh
    · cases out : m.out with
      | none =>
        simp only [none, Option.map_none, Option.toList_none, List.append_nil]
        exact ⟨shared ▸ pending, old, silent.failing⟩
      | some r =>
        -- a call returns
        simp only [none, Option.map_none, Option.toList_none, Option.map_some, Option.toList_some, List.nil_append]
        refine ⟨shared ▸ pending, fun q c' mem => ?_, silent.failing.ret fun c mem => value r out (silent.ending p c mem)⟩
        rcases List.mem_append.1 mem with mem | last
        · exact old q c' mem
        · cases List.mem_singleton.1 last

/-- What a process is told of one call. -/
theorem Failing.told (failing : Failing h) {p : P} {x : Call × Int} (told : pairs p [x] <:+: seen p h) :
    x.2 = -1 := by
  have both : List.Sublist [.call p x.1, .ret p x.2] h := told.sublist.trans List.filter_sublist
  exact (List.pairwise_pair.1 (failing.sublist both)) p x.1 x.2 rfl rfl

end Runs

end Beaglebone.I2c
