import Beaglebone.Machine.Decimal
import Beaglebone.Machine.UserCopy
import Mathlib.Data.BitVec

/-!
# `kernel/004_pwm_driver`: a percentage

`driver_write` copies at most four bytes of the user to the end of `"000"` and its NUL,
takes the first three for digits and the fourth for a newline, whatever it is. The
number it makes of them is 5184 too large, since the offset of `'0'` is subtracted three
times where the digits have it 111 times, and its product with the period wraps: no
percentage ever gets its on-time (`duty_cycle_iff`).
-/

namespace Beaglebone.Kernel.PwmDriver

open Machine

def pwmPeriod : S32 := 1000000000

/-- `sizeof(duty_cycle)` -/
def dutyCycleSize : Nat := 4

/-- A call of `driver_write`: the bytes of the user, and how many cannot be copied. -/
structure Write where
  text : List U8
  lost : Nat := 0
  rest : Rest := .zeroed

namespace Write

def toCopy (w : Write) : Nat := min w.text.length dutyCycleSize

/-- `char duty_cycle[4] = "000"` after `copy_from_user`. -/
def dutyCycle (w : Write) : List U8 :=
  copyFromUser w.rest [0x30, 0x30, 0x30, 0] (dutyCycleSize - w.toCopy) (w.text.take w.toCopy) w.lost

/-- `duty_cycle[i]` -/
def byte (w : Write) (i : Nat) : U8 := w.dutyCycle.getD i 0

end Write

/-- The test of the three bytes. -/
def invalid (d0 d1 d2 : U8) : Bool :=
  d0 > 0x31 || d0 < 0x30 || d1 > 0x39 || d1 < 0x30 || d2 > 0x39 || d2 < 0x30

def dutyCycleNumber (d0 d1 d2 : U8) : S32 :=
  d0.setWidth 32 * 100 + d1.setWidth 32 * 10 + d2.setWidth 32 - 3 * 0x30

/-- `PWM_PERIOD*duty_cycle_number/100` -/
def onTime (d0 d1 d2 : U8) : S32 := (pwmPeriod * dutyCycleNumber d0 d1 d2).sdiv 100

/-- `driver_write`: its value, and the on-time that `pwm_config` is called with, if it is. -/
def driverWrite (w : Write) : Nat × Option S32 :=
  let d0 := w.byte 0
  let d1 := w.byte 1
  let d2 := w.byte 2
  (copied w.toCopy w.lost, if invalid d0 d1 d2 then none else some (onTime d0 d1 d2))

/-- The user has written one to three digits that denote `n`, and a newline or not. -/
structure Percentage (w : Write) (n : Nat) : Prop where
  whole : w.lost = 0
  text : ∃ ds, (w.text = ds ∨ w.text = ds ++ [0x0A]) ∧ 0 < ds.length ∧ ds.length ≤ 3 ∧
    (∀ d ∈ ds, isDigit d = true) ∧ digitsValue ds = n
  le : n ≤ 100

/-- `pwm_config` is called exactly for a percentage, with its part of the period. -/
def Obeys (w : Write) : Prop :=
  ∀ t : Int, (driverWrite w).2.map BitVec.toInt = some t ↔
    ∃ n, Percentage w n ∧ t = pwmPeriod.toInt * n / 100 ∧ 0 ≤ t ∧ t ≤ pwmPeriod.toInt

/-- The three bytes pass the test. -/
def Write.Accepted (w : Write) : Prop := invalid (w.byte 0) (w.byte 1) (w.byte 2) = false

section

variable {w : Write} {d0 d1 d2 : U8} {n : Nat}

theorem valid_iff : invalid d0 d1 d2 = false ↔
    (0x30 ≤ d0.toNat ∧ d0.toNat ≤ 0x31) ∧ isDigit d1 = true ∧ isDigit d2 = true := by
  simp only [invalid, isDigit, Bool.or_eq_false_iff, decide_eq_false_iff_not, Bool.and_eq_true, decide_eq_true_eq,
    BitVec.lt_def, gt_iff_lt, BitVec.ofNat_eq_ofNat, BitVec.toNat_ofNat]
  omega

/-- No on-time is that of a percentage. -/
theorem onTime_table : ∀ a < 2, ∀ b < 10, ∀ c < 10,
    (onTime (BitVec.ofNat 8 (0x30 + a)) (BitVec.ofNat 8 (0x30 + b)) (BitVec.ofNat 8 (0x30 + c))).toInt %
      10000000 ≠ 0 := by
  decide +kernel

theorem digit_eq {d : U8} (low : 0x30 ≤ d.toNat) : d = BitVec.ofNat 8 (0x30 + (d.toNat - 0x30)) := by
  apply BitVec.eq_of_toNat_eq
  rw [BitVec.toNat_ofNat]
  omega

theorem onTime_ne (valid : invalid d0 d1 d2 = false) (n : Nat) : (onTime d0 d1 d2).toInt ≠ pwmPeriod.toInt * n / 100 := by
  rw [valid_iff] at valid
  obtain ⟨⟨low, high⟩, digit1, digit2⟩ := valid
  simp only [isDigit, Bool.and_eq_true, decide_eq_true_eq] at digit1 digit2
  have table := onTime_table (d0.toNat - 0x30) (by omega) (d1.toNat - 0x30) (by omega) (d2.toNat - 0x30) (by omega)
  rw [← digit_eq low, ← digit_eq digit1.1, ← digit_eq digit2.1] at table
  have period : pwmPeriod.toInt = 1000000000 := by decide
  rw [period]
  omega

/-- A percentage passes the test. -/
theorem accepted_of_percentage (h : Percentage w n) : w.Accepted := by
  obtain ⟨whole, ⟨ds, text, pos, short, digits, value⟩, le⟩ := h
  have window : w.dutyCycle = store [0x30, 0x30, 0x30, 0] (dutyCycleSize - w.toCopy) (w.text.take w.toCopy) := by
    rw [Write.dutyCycle, whole, copyFromUser_complete]
  unfold Write.Accepted Write.byte
  rw [valid_iff, window]
  rcases ds with _ | ⟨a, _ | ⟨b, _ | ⟨c, _ | ⟨d, ds⟩⟩⟩⟩
  · cases pos
  · rcases text with text | text <;> simp [Write.toCopy, dutyCycleSize, store, text, isDigit] at digits ⊢
    omega
  · rcases text with text | text <;> simp [Write.toCopy, dutyCycleSize, store, text, isDigit] at digits ⊢ <;> omega
  · -- with the newline the first digit is tested for 0 or 1
    have first : a.toNat ≤ 0x31 := by
      simp only [digitsValue, digit, List.foldl_cons, List.foldl_nil] at value
      omega
    rcases text with text | text <;> simp [Write.toCopy, dutyCycleSize, store, text, isDigit] at digits ⊢ <;> omega
  · simp only [List.length_cons] at short
    omega

end

/-- **The duty cycle.** A write does what it is for exactly if its first three bytes in
the buffer do not pass the test, and then `pwm_config` is not called. -/
theorem duty_cycle_iff (w : Write) : Obeys w ↔ ¬ w.Accepted := by
  have called : w.Accepted → (driverWrite w).2 = some (onTime (w.byte 0) (w.byte 1) (w.byte 2)) := by
    intro accepted
    rw [Write.Accepted] at accepted
    rw [driverWrite]
    simp [accepted]
  constructor
  · intro obeys accepted
    obtain ⟨n, -, part, -⟩ := (obeys _).1 (by rw [called accepted, Option.map_some])
    exact onTime_ne accepted n part
  · intro rejected t
    have none : (driverWrite w).2 = none := by
      rw [Write.Accepted, Bool.not_eq_false] at rejected
      rw [driverWrite]
      simp [rejected]
    rw [none, Option.map_none]
    exact ⟨nofun, fun ⟨n, percentage, _⟩ => absurd (accepted_of_percentage percentage) rejected⟩

/-- `echo 50` -/
def half : Write := { text := [0x35, 0x30, 0x0A] }

/-- The signal would be on for less than no time. -/
theorem half_not_obeyed : ¬ ∀ w, Obeys w := by
  intro all
  have called : (driverWrite half).2.map BitVec.toInt = some (-15651338) := by decide +kernel
  obtain ⟨n, -, -, low, -⟩ := (all half (-15651338)).1 called
  omega

end Beaglebone.Kernel.PwmDriver
