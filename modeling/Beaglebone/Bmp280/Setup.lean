import Beaglebone.Bmp280.Sampling

/-!
# `bmp280_init` over a bus that fails

Each transaction of `bmp280_init` has a result of its own: a byte, or an error. Only
the read of the ID is checked: after it the function returns 0 whatever the six
calibration reads and the two writes give, and a read that failed becomes part of a
calibration word as -1 (`setup_iff`).
-/

namespace Beaglebone.Bmp280

open Machine

/-- One call of `cotti_i2c_read` or `cotti_i2c_write`. -/
inductive Transaction where
  | read (address : U8)
  | write (value regAddress : U8)
  deriving DecidableEq, Repr

/-- The results to come, by the number of the transaction, and the transactions so
far with their results. `none` is a failure; a write that succeeds gives any byte. -/
structure Trace where
  results : Nat → Option U8
  log : List (Transaction × Option U8)

def Trace.next (t : Trace) : Option U8 := t.results t.log.length

def Trace.push (t : Trace) (x : Transaction) : Trace := { t with log := t.log ++ [(x, t.next)] }

def Trace.bus : Bus (StateM Trace) where
  cottiI2cRead a := fun t => (readValue t.next, t.push (.read a))
  cottiI2cWrite v r := fun t => (writeValue t.next, t.push (.write v r))

/-- What a run of `bmp280_init` leaves. -/
structure Setup where
  ret : S32
  calibration : Calibration
  log : List (Transaction × Option U8)

def setup (results : Nat → Option U8) (old : Calibration) : Setup :=
  let r : (S32 × Calibration) × Trace := (bmp280Init Trace.bus old).run ⟨results, []⟩
  ⟨r.1.1, r.1.2, r.2.log⟩

/-- `msb << 8 | lsb` of two bytes. -/
def wordOf (msb lsb : U8) : S32 := msb.setWidth 32 <<< 8 ||| lsb.setWidth 32

/-- The ID was read, every transaction succeeded, and the calibration is built from
the bytes read. -/
def Setup.Sound (s : Setup) : Prop :=
  ∃ t1Msb t1Lsb t2Msb t2Lsb t3Msb t3Lsb w1 w2 : U8,
    s.log = [(.read regId, some bmp280Id), (.read regDigT1Msb, some t1Msb), (.read regDigT1Lsb, some t1Lsb),
      (.read regDigT2Msb, some t2Msb), (.read regDigT2Lsb, some t2Lsb), (.read regDigT3Msb, some t3Msb),
      (.read regDigT3Lsb, some t3Lsb), (.write (5 <<< 5) regConfig, some w1),
      (.write (3 ||| 1 <<< 5) regCtrlMeas, some w2)] ∧
    s.calibration = ⟨wordOf t1Msb t1Lsb, wordOf t2Msb t2Lsb, wordOf t3Msb t3Lsb⟩

section Runs

variable {results : Nat → Option U8} {old : Calibration}

/-- The transactions of a run that gets past the ID. -/
def transactions (results : Nat → Option U8) : List (Transaction × Option U8) :=
  [(.read regId, results 0), (.read regDigT1Msb, results 1), (.read regDigT1Lsb, results 2),
    (.read regDigT2Msb, results 3), (.read regDigT2Lsb, results 4), (.read regDigT3Msb, results 5),
    (.read regDigT3Lsb, results 6), (.write (5 <<< 5) regConfig, results 7),
    (.write (3 ||| 1 <<< 5) regCtrlMeas, results 8)]

/-- A failed read is the byte 0xFF in a `u8`, and no byte is -1. -/
theorem connected_run (t : Trace) : StateT.run (bmp280IsConnected Trace.bus) t =
    (if t.next = some bmp280Id then (1 : S32) else 0, t.push (.read regId)) := by
  have cut : (readValue t.next).setWidth 8 = bmp280Id ↔ t.next = some bmp280Id := by
    cases t.next with
    | none => decide
    | some b => simp [readValue]
  show StateT.run (if ((readValue t.next).setWidth 8).setWidth 32 = (-1 : S32) then pure 0
    else if (readValue t.next).setWidth 8 ≠ bmp280Id then pure 0 else pure 1) (t.push (.read regId)) = _
  rw [if_neg (byte_ne_error _)]
  by_cases id : t.next = some bmp280Id
  · rw [if_pos id, if_neg (not_not.2 (cut.2 id))]
    rfl
  · rw [if_neg id, if_pos fun same => id (cut.1 same)]
    rfl

/-- Anything but the ID ends `bmp280_init`. -/
theorem setup_unknown (h : results 0 ≠ some bmp280Id) : (setup results old).ret = -1 := by
  have first : (⟨results, []⟩ : Trace).next ≠ some bmp280Id := h
  unfold setup bmp280Init
  rw [StateT.run_bind, connected_run, if_neg first]
  rfl

theorem setup_known (h : results 0 = some bmp280Id) : setup results old =
    ⟨0, ⟨readValue (results 1) <<< 8 ||| readValue (results 2), readValue (results 3) <<< 8 ||| readValue (results 4),
      readValue (results 5) <<< 8 ||| readValue (results 6)⟩, transactions results⟩ := by
  have first : (⟨results, []⟩ : Trace).next = some bmp280Id := h
  unfold setup bmp280Init
  rw [StateT.run_bind, connected_run, if_pos first]
  rfl

theorem transactions_results (results : Nat → Option U8) :
    (transactions results).map Prod.snd = (List.range 9).map results := rfl

/-- **Setting up the sensor**: `bmp280_init` returns 0 only for a sensor that is set up
completely, exactly if no transaction after the read of the ID fails. -/
theorem setup_iff (results : Nat → Option U8) (old : Calibration) :
    ((setup results old).ret = 0 → (setup results old).Sound) ↔
      (results 0 = some bmp280Id → ∀ i, 1 ≤ i → i ≤ 8 → results i ≠ none) := by
  by_cases known : results 0 = some bmp280Id
  · rw [setup_known known]
    constructor
    · intro sound _ i low high failed
      obtain ⟨b1, b2, b3, b4, b5, b6, w1, w2, log, -⟩ := sound rfl
      have mem : results i ∈ (transactions results).map Prod.snd := by
        rw [transactions_results]
        exact List.mem_map_of_mem (List.mem_range.2 (by omega))
      rw [show transactions results = _ from log, failed] at mem
      simp at mem
    · intro succeeded _
      have some : ∀ i, 1 ≤ i → i ≤ 8 → ∃ b, results i = some b := fun i low high =>
        Option.ne_none_iff_exists'.1 (succeeded known i low high)
      obtain ⟨b1, h1⟩ := some 1 (by omega) (by omega)
      obtain ⟨b2, h2⟩ := some 2 (by omega) (by omega)
      obtain ⟨b3, h3⟩ := some 3 (by omega) (by omega)
      obtain ⟨b4, h4⟩ := some 4 (by omega) (by omega)
      obtain ⟨b5, h5⟩ := some 5 (by omega) (by omega)
      obtain ⟨b6, h6⟩ := some 6 (by omega) (by omega)
      obtain ⟨w1, h7⟩ := some 7 (by omega) (by omega)
      obtain ⟨w2, h8⟩ := some 8 (by omega) (by omega)
      refine ⟨b1, b2, b3, b4, b5, b6, w1, w2, ?_, ?_⟩
      · simp only [transactions, known, h1, h2, h3, h4, h5, h6, h7, h8]
      · simp only [h1, h2, h3, h4, h5, h6]
        rfl
  · rw [setup_unknown known]
    exact ⟨fun _ k => absurd k known, fun _ zero => by cases zero⟩

end Runs

/-- The ID is read, everything else fails. -/
theorem deafSensor_unsound : ¬ ∀ (results : Nat → Option U8) (old : Calibration),
    (setup results old).ret = 0 → (setup results old).Sound := by
  intro sound
  have failed := (setup_iff (fun n => if n = 0 then some bmp280Id else none) ⟨0, 0, 0⟩).1 (sound _ _) rfl 1
  exact failed (by omega) (by omega) rfl

end Beaglebone.Bmp280
