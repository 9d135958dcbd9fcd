import Mathlib.Algebra.BigOperators.Group.Finset.Basic
import Mathlib.Algebra.Order.BigOperators.Group.Finset
import Mathlib.Tactic.Common
import Beaglebone.Machine.Run
import Beaglebone.Machine.Word

/-!
# `kernel/012_send_signal`: a task pointer and the files of its processes

Any number of processes that open the device, register, fork, close and exit, and
the button's interrupt, in any order. `task` is set by a registration and set to
NULL when the last reference to any open file is dropped. A process that exits
closes its files first, as `close` steps of its own. The interrupt reaches the
process that registered last, and never one that has exited, in every run in
which no other file is released while that process keeps its own one open, and
no process exits as long as `task` points to it (`signal_delivered`).
-/

namespace Beaglebone.Kernel.SendSignal

open Machine

inductive Life where
  | unborn
  | alive
  | exited
  deriving DecidableEq, Repr

/-- Processes `P` and open files `F`: the static variable of the driver and the
kernel's tables. -/
structure State (P F : Type) where
  task : Option P := none
  life : P → Life := fun _ => .unborn
  /-- the descriptors of a process -/
  fds : P → List F := fun _ => []
  /-- the references to an open file, and whether it has ever been opened -/
  refs : F → Nat := fun _ => 0
  used : F → Bool := fun _ => false
  /-- history: the last registration, as the process and its file -/
  latest : Option (P × F) := none
  /-- history: the tasks that SIGUSR1 has been sent to -/
  signals : List P := []

inductive Action (P F : Type) where
  /-- a process from outside -/
  | spawn (p : P)
  | openFile (p : P) (f : F)
  | ioctl (p : P) (f : F) (cmd : U32)
  /-- `c` is the child -/
  | fork (p c : P)
  | close (p : P) (f : F)
  | exit (p : P)
  /-- the interrupt -/
  | button
  deriving DecidableEq

/-- `IO_REGISTER_USER_APP`, that is `_IO('c', 1)` -/
def ioRegisterUserApp : U32 := 0x6301

namespace State

variable {P F : Type} [DecidableEq P] [DecidableEq F]

/-- `gpio_irq_handler` -/
def gpioIrqHandler (g : State P F) : State P F :=
  match g.task with
  | some p => { g with signals := g.signals ++ [p] }
  | none => g

/-- `driver_ioctl` in the process `p`. -/
def driverIoctl (g : State P F) (p : P) (f : F) (cmd : U32) : State P F :=
  if cmd = ioRegisterUserApp then { g with task := some p, latest := some (p, f) } else g

/-- `driver_close` -/
def driverClose (g : State P F) : State P F := { g with task := none }

/-- Drop one reference to `f`; the last one calls `driver_close`. -/
def drop (g : State P F) (f : F) : State P F :=
  let g' := { g with refs := upd g.refs f (g.refs f - 1) }
  if g.refs f = 1 then g'.driverClose else g'

/-- The process that registered last, while it is alive and has its file open. -/
def client (g : State P F) : Option (P × F) :=
  g.latest.filter fun r => g.life r.1 = .alive ∧ r.2 ∈ g.fds r.1

end State

section Client

variable {P F : Type} [DecidableEq F] {g g' : State P F} {r : P × F}

/-- The invariant: `task` is the client, if there is one, and a process that lives. -/
structure Tracked (g : State P F) : Prop where
  client : ∀ r, g.client = some r → g.task = some r.1
  alive : ∀ p, g.task = some p → g.life p = .alive
  /-- the last registration was made by a process and through a file that existed -/
  born : ∀ r, g.latest = some r → g.life r.1 ≠ .unborn
  used : ∀ r, g.latest = some r → g.used r.2 = true

theorem client_iff : g.client = some r ↔ g.latest = some r ∧ g.life r.1 = .alive ∧ r.2 ∈ g.fds r.1 := by
  simp [State.client, Option.filter_eq_some_iff]

/-- A client after a step that registers nobody was one before, if the step has not
given it its file or its life. -/
theorem client_before (h : g'.client = some r) (latest : g'.latest = g.latest)
    (life : g'.life r.1 = .alive → g.life r.1 = .alive) (fds : r.2 ∈ g'.fds r.1 → r.2 ∈ g.fds r.1) :
    g.client = some r := by
  obtain ⟨last, living, holds⟩ := client_iff.1 h
  exact client_iff.2 ⟨latest ▸ last, life living, fds holds⟩

/-- A new process is not yet known to the driver. -/
theorem Tracked.ne_unborn (h : Tracked g) (latest : g.latest = some r) {c : P} (unborn : g.life c = .unborn) :
    r.1 ≠ c := by
  rintro rfl
  exact h.born r latest unborn

end Client

section System

variable {P F : Type} [DecidableEq P] [DecidableEq F]

def step (g : State P F) : Action P F → Option (State P F)
  | .spawn p => if g.life p = .unborn then some { g with life := upd g.life p .alive } else none
  | .openFile p f =>
    if g.life p = .alive ∧ g.used f = false then
      some { g with fds := upd g.fds p (f :: g.fds p), refs := upd g.refs f 1, used := upd g.used f true }
    else none
  | .ioctl p f cmd => if g.life p = .alive ∧ f ∈ g.fds p then some (g.driverIoctl p f cmd) else none
  | .fork p c =>
    if g.life p = .alive ∧ g.life c = .unborn then
      some { g with life := upd g.life c .alive, fds := upd g.fds c (g.fds p),
                    refs := fun f => g.refs f + (g.fds p).count f }
    else none
  | .close p f =>
    if g.life p = .alive ∧ f ∈ g.fds p then
      some ({ g with fds := upd g.fds p ((g.fds p).erase f) }.drop f)
    else none
  | .exit p =>
    if g.life p = .alive ∧ g.fds p = [] then some { g with life := upd g.life p .exited } else none
  | .button => some g.gpioIrqHandler

/-- No file is released while the last registrant keeps another one, through which it
registered; no process exits while `task` points to it. -/
def Considerate (g : State P F) : Action P F → Prop
  | .close p f => g.refs f = 1 → ∀ r, g.client = some r → r = (p, f)
  | .exit p => g.task ≠ some p
  | _ => True

instance (g : State P F) : (a : Action P F) → Decidable (Considerate g a)
  | .close p f => inferInstanceAs (Decidable (g.refs f = 1 → ∀ r ∈ g.client, r = (p, f)))
  | .exit p => inferInstanceAs (Decidable (g.task ≠ some p))
  | .spawn _ | .openFile _ _ | .ioctl _ _ _ | .fork _ _ | .button => .isTrue trivial

/-! ## References -/

variable {g g' : State P F} {a : Action P F} {p : P} {f : F} {r : P × F}

/-- A file has at least as many references as descriptors. -/
structure Counted (g : State P F) : Prop where
  refs : ∀ (s : Finset P) (f : F), ∑ q ∈ s, (g.fds q).count f ≤ g.refs f
  /-- every descriptor refers to a file that has been opened -/
  used : ∀ p, ∀ f ∈ g.fds p, g.used f = true

/-- The descriptors of all but `p` are not affected by a change of those of `p`. -/
theorem sum_upd (fds : P → List F) (l : List F) (f : F) {s : Finset P} (mem : p ∈ s) :
    ∑ q ∈ s, (upd fds p l q).count f + (fds p).count f = ∑ q ∈ s, (fds q).count f + l.count f := by
  have others : ∑ q ∈ s.erase p, (upd fds p l q).count f = ∑ q ∈ s.erase p, (fds q).count f :=
    Finset.sum_congr rfl fun q hq => by rw [upd_other _ _ (Finset.ne_of_mem_erase hq)]
  have new := Finset.add_sum_erase s (fun q => (upd fds p l q).count f) mem
  have old := Finset.add_sum_erase s (fun q => (fds q).count f) mem
  simp only [upd_same] at new
  omega

theorem sum_upd_of_notMem (fds : P → List F) (l : List F) (f : F) {s : Finset P} (out : p ∉ s) :
    ∑ q ∈ s, (upd fds p l q).count f = ∑ q ∈ s, (fds q).count f := by
  apply Finset.sum_congr rfl
  intro q hq
  have other : q ≠ p := fun same => out (same ▸ hq)
  rw [upd_other _ _ other]

theorem Counted.openFile (h : Counted g) (fresh : g.used f = false) :
    Counted { g with fds := upd g.fds p (f :: g.fds p), refs := upd g.refs f 1, used := upd g.used f true } := by
  -- nobody has a descriptor of a file that has not been opened
  have none : ∀ q, (g.fds q).count f = 0 := by
    intro q
    apply List.count_eq_zero_of_not_mem
    intro mem
    have used := h.used q f mem
    rw [fresh] at used
    cases used
  constructor
  · intro s e
    have new : (f :: g.fds p).count e = (g.fds p).count e + if f = e then 1 else 0 := by
      rw [List.count_cons]
      simp
    have before := h.refs s e
    have others : f = e → ∑ q ∈ s, (g.fds q).count e = 0 := by
      rintro rfl
      exact Finset.sum_eq_zero fun q _ => none q
    show ∑ q ∈ s, (upd g.fds p (f :: g.fds p) q).count e ≤ upd g.refs f 1 e
    have bound : ∑ q ∈ s, (upd g.fds p (f :: g.fds p) q).count e ≤
        ∑ q ∈ s, (g.fds q).count e + if f = e then 1 else 0 := by
      by_cases mem : p ∈ s
      · have sum := sum_upd g.fds (f :: g.fds p) e mem
        omega
      · rw [sum_upd_of_notMem _ _ _ mem]
        omega
    by_cases same : f = e
    · subst same
      rw [upd_same]
      have zero := others rfl
      rw [if_pos rfl] at bound
      omega
    · rw [upd_other _ _ (Ne.symm same)]
      rw [if_neg same] at bound
      omega
  · intro q e mem
    show upd g.used f true e = true
    change e ∈ upd g.fds p (f :: g.fds p) q at mem
    have old : e ∈ f :: g.fds q := by
      by_cases same : q = p
      · rwa [same, upd_same, ← same] at mem
      · rw [upd_other _ _ same] at mem
        exact List.mem_cons_of_mem _ mem
    by_cases same : e = f
    · rw [same, upd_same]
    · rw [upd_other _ _ same]
      exact h.used q e ((List.mem_cons.1 old).resolve_left same)

theorem Counted.fork (h : Counted g) {c : P} :
    Counted { g with life := upd g.life c .alive, fds := upd g.fds c (g.fds p),
                     refs := fun f => g.refs f + (g.fds p).count f } := by
  constructor
  · intro s e
    show ∑ q ∈ s, (upd g.fds c (g.fds p) q).count e ≤ g.refs e + (g.fds p).count e
    have before := h.refs s e
    by_cases mem : c ∈ s
    · have sum := sum_upd g.fds (g.fds p) e mem
      omega
    · rw [sum_upd_of_notMem _ _ _ mem]
      omega
  · intro q e mem
    change e ∈ upd g.fds c (g.fds p) q at mem
    by_cases same : q = c
    · rw [same, upd_same] at mem
      exact h.used p e mem
    · rw [upd_other _ _ same] at mem
      exact h.used q e mem

/-- Closing one descriptor takes it out of any set of processes around `p`. -/
theorem sum_close (holds : f ∈ g.fds p) {s : Finset P} (mem : p ∈ s) :
    ∑ q ∈ s, (upd g.fds p ((g.fds p).erase f) q).count f + 1 = ∑ q ∈ s, (g.fds q).count f := by
  have sum := sum_upd g.fds ((g.fds p).erase f) f mem
  have one : 0 < (g.fds p).count f := List.count_pos_iff.2 holds
  rw [List.count_erase_self] at sum
  omega

theorem Counted.close (h : Counted g) (holds : f ∈ g.fds p) :
    Counted { g with fds := upd g.fds p ((g.fds p).erase f), refs := upd g.refs f (g.refs f - 1) } := by
  constructor
  · intro s e
    show ∑ q ∈ s, (upd g.fds p ((g.fds p).erase f) q).count e ≤ upd g.refs f (g.refs f - 1) e
    by_cases same : e = f
    · subst same
      rw [upd_same]
      -- the sum over `s` and `p` loses one
      have before := h.refs (insert p s) e
      have sum := sum_close holds (Finset.mem_insert_self p s)
      have sub : ∑ q ∈ s, (upd g.fds p ((g.fds p).erase e) q).count e ≤
          ∑ q ∈ insert p s, (upd g.fds p ((g.fds p).erase e) q).count e :=
        Finset.sum_le_sum_of_subset (Finset.subset_insert p s)
      omega
    · rw [upd_other _ _ same]
      have kept : ∀ q, (upd g.fds p ((g.fds p).erase f) q).count e = (g.fds q).count e := by
        intro q
        by_cases own : q = p
        · rw [own, upd_same, List.count_erase_of_ne same]
        · rw [upd_other _ _ own]
      rw [Finset.sum_congr rfl fun q _ => kept q]
      exact h.refs s e
  · intro q e mem
    change e ∈ upd g.fds p ((g.fds p).erase f) q at mem
    by_cases same : q = p
    · rw [same, upd_same] at mem
      exact h.used p e (List.mem_of_mem_erase mem)
    · rw [upd_other _ _ same] at mem
      exact h.used q e mem

/-- The last reference is the last descriptor. -/
theorem Counted.released (h : Counted g) (last : g.refs f = 1) (holds : f ∈ g.fds p) (q : P) :
    f ∉ upd g.fds p ((g.fds p).erase f) q := by
  intro mem
  have before := h.refs {p, q} f
  have sum := sum_close holds (s := {p, q}) (by simp)
  have one : 1 ≤ ∑ r ∈ {p, q}, (upd g.fds p ((g.fds p).erase f) r).count f :=
    le_trans (List.count_pos_iff.2 mem)
      (Finset.single_le_sum (f := fun r => (upd g.fds p ((g.fds p).erase f) r).count f)
        (fun _ _ => Nat.zero_le _) (by simp))
  omega

theorem Counted.step (h : Counted g) (hs : step g a = some g') : Counted g' := by
  cases a with
  | spawn c =>
    simp only [SendSignal.step] at hs
    split at hs <;> cases hs
    exact ⟨h.refs, h.used⟩
  | openFile p f =>
    simp only [SendSignal.step] at hs
    split at hs
    · next fresh => cases hs; exact h.openFile fresh.2
    · cases hs
  | ioctl p f cmd =>
    simp only [SendSignal.step] at hs
    split at hs
    · cases hs
      unfold State.driverIoctl
      split <;> exact ⟨h.refs, h.used⟩
    · cases hs
  | fork p c =>
    simp only [SendSignal.step] at hs
    split at hs <;> cases hs
    exact h.fork
  | close p f =>
    simp only [SendSignal.step] at hs
    split at hs
    · next mine =>
      cases hs
      have closed := h.close mine.2
      unfold State.drop
      dsimp only
      split <;> exact ⟨closed.refs, closed.used⟩
    · cases hs
  | exit p =>
    simp only [SendSignal.step] at hs
    split at hs <;> cases hs
    exact ⟨h.refs, h.used⟩
  | button =>
    cases hs
    unfold State.gpioIrqHandler
    split <;> exact ⟨h.refs, h.used⟩

/-! ## The task pointer -/

theorem Tracked.spawn (h : Tracked g) {c : P} (unborn : g.life c = .unborn) :
    Tracked { g with life := upd g.life c .alive } := by
  have other : ∀ r, g.latest = some r → upd g.life c .alive r.1 = g.life r.1 := fun r latest =>
    upd_other _ _ (h.ne_unborn latest unborn)
  constructor
  · intro r client
    have latest := (client_iff.1 client).1
    exact h.client r (client_before client rfl (fun living => (other r latest).symm.trans living) id)
  · intro q task
    by_cases same : q = c
    · rw [same]; exact upd_same _ _ _
    · exact (upd_other _ _ same).trans (h.alive q task)
  · intro r latest unborn'
    exact h.born r latest ((other r latest).symm.trans unborn')
  · exact h.used

theorem Tracked.openFile (h : Tracked g) (fresh : g.used f = false) :
    Tracked { g with fds := upd g.fds p (f :: g.fds p), refs := upd g.refs f 1, used := upd g.used f true } := by
  constructor
  · intro r client
    have latest := (client_iff.1 client).1
    refine h.client r (client_before client rfl id fun holds => ?_)
    -- the new file is not the one of the last registration
    have other : r.2 ≠ f := fun same => by
      have used := h.used r latest
      rw [same, fresh] at used
      cases used
    by_cases same : r.1 = p
    · change r.2 ∈ upd g.fds p (f :: g.fds p) r.1 at holds
      rw [same, upd_same] at holds
      rw [same]
      exact (List.mem_cons.1 holds).resolve_left other
    · rwa [← upd_other g.fds (f :: g.fds p) same]
  · exact h.alive
  · exact h.born
  · intro r latest
    show upd g.used f true r.2 = true
    by_cases same : r.2 = f
    · rw [same, upd_same]
    · rw [upd_other _ _ same]
      exact h.used r latest

omit [DecidableEq P] in
theorem Tracked.ioctl (h : Tracked g) (counted : Counted g) {cmd : U32} (alive : g.life p = .alive) (holds : f ∈ g.fds p) :
    Tracked (g.driverIoctl p f cmd) := by
  unfold State.driverIoctl
  split
  · constructor
    · intro r client
      rw [← Option.some.inj (client_iff.1 client).1]
    · rintro q ⟨⟩
      exact alive
    · rintro r ⟨⟩
      simp [alive]
    · rintro r ⟨⟩
      exact counted.used p f holds
  · exact h

theorem Tracked.fork (h : Tracked g) {c : P} (unborn : g.life c = .unborn) :
    Tracked { g with life := upd g.life c .alive, fds := upd g.fds c (g.fds p),
                     refs := fun f => g.refs f + (g.fds p).count f } := by
  have spawned := h.spawn unborn
  constructor
  · intro r client
    have latest := (client_iff.1 client).1
    refine spawned.client r (client_before client rfl id fun holds => ?_)
    rwa [← upd_other g.fds (g.fds p) (h.ne_unborn latest unborn)]
  · exact spawned.alive
  · exact spawned.born
  · exact h.used

/-- A client of the state after a close was one before. -/
theorem client_close (h : { g with fds := upd g.fds p ((g.fds p).erase f) }.client = some r) :
    g.client = some r := by
  refine client_before h rfl id fun holds => ?_
  change r.2 ∈ upd g.fds p ((g.fds p).erase f) r.1 at holds
  by_cases same : r.1 = p
  · rw [same, upd_same] at holds
    rw [same]
    exact List.mem_of_mem_erase holds
  · rwa [upd_other _ _ same] at holds

theorem Tracked.close (h : Tracked g) (counted : Counted g) (holds : f ∈ g.fds p)
    (considerate : Considerate g (.close p f)) :
    Tracked ({ g with fds := upd g.fds p ((g.fds p).erase f) }.drop f) := by
  unfold State.drop
  dsimp only
  split
  · next last =>
    refine ⟨fun r client => ?_, nofun, h.born, h.used⟩
    -- the client's file is the released one, which nobody holds any more
    have own : r = (p, f) := considerate last r (client_close client)
    subst own
    exact absurd (client_iff.1 client).2.2 (counted.released last holds p)
  · exact ⟨fun r client => h.client r (client_close client), h.alive, h.born, h.used⟩

theorem Tracked.exit (h : Tracked g) (considerate : g.task ≠ some p) :
    Tracked { g with life := upd g.life p .exited } := by
  constructor
  · intro r client
    refine h.client r (client_before client rfl (fun living => ?_) id)
    change upd g.life p .exited r.1 = .alive at living
    by_cases same : r.1 = p
    · rw [same, upd_same] at living
      cases living
    · rwa [upd_other _ _ same] at living
  · intro q task
    have other : q ≠ p := fun same => considerate (same ▸ task)
    exact (upd_other _ _ other).trans (h.alive q task)
  · intro r latest
    show upd g.life p .exited r.1 ≠ .unborn
    by_cases same : r.1 = p
    · rw [same, upd_same]
      simp
    · rw [upd_other _ _ same]
      exact h.born r latest
  · exact h.used

theorem Tracked.step (h : Tracked g) (counted : Counted g) (considerate : Considerate g a) (hs : step g a = some g') : Tracked g' := by
  cases a with
  | spawn c =>
    simp only [SendSignal.step] at hs
    split at hs <;> cases hs
    exact h.spawn ‹_›
  | openFile p f =>
    simp only [SendSignal.step] at hs
    split at hs
    · next fresh => cases hs; exact h.openFile fresh.2
    · cases hs
  | ioctl p f cmd =>
    simp only [SendSignal.step] at hs
    split at hs
    · next mine => cases hs; exact h.ioctl counted mine.1 mine.2
    · cases hs
  | fork p c =>
    simp only [SendSignal.step] at hs
    split at hs
    · next child => cases hs; exact h.fork child.2
    · cases hs
  | close p f =>
    simp only [SendSignal.step] at hs
    split at hs
    · next mine => cases hs; exact h.close counted mine.2 considerate
    · cases hs
  | exit p =>
    simp only [SendSignal.step] at hs
    split at hs
    · cases hs; exact h.exit considerate
    · cases hs
  | button =>
    cases hs
    unfold State.gpioIrqHandler
    split
    · exact ⟨h.client, h.alive, h.born, h.used⟩
    · exact h

/-- Both invariants hold in every considerate run. -/
theorem tracked (h : Reach step Considerate {} g) : Counted g ∧ Tracked g := by
  have start : Counted ({} : State P F) ∧ Tracked ({} : State P F) := by
    constructor
    · exact ⟨fun s f => by simp, nofun⟩
    · exact ⟨nofun, nofun, nofun, nofun⟩
  induction h with
  | start => exact start
  | step _ considerate hs ih => exact ⟨ih.1.step hs, ih.2.step ih.1 considerate hs⟩

/-- **The signal's target**, in every considerate run: an interrupt signals the process
that registered last, if it is alive and has its file open, and no process that has
exited. -/
theorem signal_delivered (h : Reach step Considerate {} g) (hs : step g .button = some g') :
    (∀ r, g.client = some r → g'.signals = g.signals ++ [r.1]) ∧
    ∀ p, g'.signals = g.signals ++ [p] → g.life p = .alive := by
  have tracked : Tracked g := (tracked h).2
  cases hs
  unfold State.gpioIrqHandler
  constructor
  · intro r client
    rw [tracked.client r client]
  · intro p sent
    split at sent
    · next q task =>
      have same : q = p := by simpa using sent
      exact same ▸ tracked.alive q task
    · simp at sent

end System

/-- Process 0 registers, forks process 1 and goes on after that one has exited. -/
def sharedFile : List (Action Nat Nat) :=
  [.spawn 0, .openFile 0 0, .ioctl 0 0 ioRegisterUserApp, .fork 0 1, .close 1 0, .exit 1]

theorem sharedFile_delivered : ∃ g g' : State Nat Nat, step g .button = some g' ∧ g.client = some (0, 0) ∧
    (∀ r, g.client = some r → g'.signals = g.signals ++ [r.1]) ∧
    ∀ p, g'.signals = g.signals ++ [p] → g.life p = .alive := by
  obtain ⟨g, run, client⟩ := exists_reach step Considerate (fun g => g.client = some (0, 0))
    ({} : State Nat Nat) sharedFile (by decide)
  exact ⟨g, _, rfl, client, signal_delivered run rfl⟩

/-- Process 1 opens the device and closes it again. -/
def strangerCloses : List (Action Nat Nat) :=
  [.spawn 0, .openFile 0 0, .ioctl 0 0 ioRegisterUserApp, .spawn 1, .openFile 1 1, .close 1 1]

/-- The interrupt does not reach process 0 any more. -/
theorem strangerCloses_undelivered : ¬ ∀ g g' : State Nat Nat, Reach step always {} g →
    step g .button = some g' → (∀ r, g.client = some r → g'.signals = g.signals ++ [r.1]) ∧
      ∀ p, g'.signals = g.signals ++ [p] → g.life p = .alive := by
  intro delivered
  obtain ⟨g, run, client, lost⟩ := exists_reach step always
    (fun g => g.client = some (0, 0) ∧ g.gpioIrqHandler.signals = []) ({} : State Nat Nat) strangerCloses
    (by decide)
  have sent := (delivered g _ run rfl).1 _ client
  rw [lost] at sent
  simp at sent

/-- Process 0 exits while its child keeps the file open. -/
def orphan : List (Action Nat Nat) :=
  [.spawn 0, .openFile 0 0, .ioctl 0 0 ioRegisterUserApp, .fork 0 1, .close 0 0, .exit 0]

/-- The interrupt goes to a task that has exited. -/
theorem orphan_signalled : ∃ g : State Nat Nat, Reach step always {} g ∧
    g.gpioIrqHandler.signals = [0] ∧ g.life 0 = .exited := by
  obtain ⟨g, run, sent⟩ := exists_reach step always
    (fun g => g.gpioIrqHandler.signals = [0] ∧ g.life 0 = .exited) ({} : State Nat Nat) orphan (by decide)
  exact ⟨g, run, sent⟩

end Beaglebone.Kernel.SendSignal
