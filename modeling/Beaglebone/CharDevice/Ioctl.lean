import Beaglebone.CharDevice.Calls

/-!
# `char_device_ioctl`

The operation that a user passes is cast to the type of the command and used as it
is. For a declared enumerator the effect is exact; beyond that CONFIG takes the low
three bits of a frequency, and a reading in an unknown unit is in Celsius
(`ioctl_effect`).
-/

namespace Beaglebone.CharDevice

open Machine Bmp280

/-- A bus whose writes all return `result`; it records value and register of each. -/
def recorder (result : S32) : Bus (StateM (List (U8 × U8))) where
  cottiI2cRead _ := pure 0
  cottiI2cWrite value regAddress := do
    modify (· ++ [(value, regAddress)])
    pure result

/-- The value of an ioctl, `g_unit` after it and the writes to the bus. -/
structure IoctlResult where
  ret : Int
  unit : TempUnit
  writes : List (U8 × U8)
  deriving DecidableEq

def ioctl (result : S32) (cmd : U32) (operation : Option S32) (unit : TempUnit) : IoctlResult :=
  let r : (Int × TempUnit) × List (U8 × U8) := (charDeviceIoctl (recorder result) cmd operation unit).run []
  ⟨r.1.1, r.1.2, r.2⟩

/-! The fields of CONFIG and CTRL_MEAS -/

def standby (config : U8) : BitVec 3 := config.extractLsb' 5 3
def configRest (config : U8) : BitVec 5 := config.extractLsb' 0 5
def osrsT (ctrlMeas : U8) : BitVec 3 := ctrlMeas.extractLsb' 5 3
def osrsP (ctrlMeas : U8) : BitVec 3 := ctrlMeas.extractLsb' 2 3
def modeBits (ctrlMeas : U8) : BitVec 2 := ctrlMeas.extractLsb' 0 2

/-! The enumerators -/

/-- `FREQ_167` to `FREQ_0_25` -/
def DeclaredFreq (freq : Freq) : Prop := freq.toNat ≤ 7

def DeclaredMode (mode : Mode) : Prop := mode = .sleep ∨ mode = .forced ∨ mode = .normal

def DeclaredUnit (unit : TempUnit) : Prop := unit = .celsius ∨ unit = .kelvin ∨ unit = .fahrenheit

/-- What `cotti_i2c_write` returned, as the value of the ioctl. -/
def writeRet (result : S32) : Int := if result = 0 then 0 else -1

section Commands

variable {result operation : S32} {cmd : U32} {unit : TempUnit}

/-- A write whose result is reported. -/
theorem write_run (value regAddress : U8) : StateT.run (do
      if (← (recorder result).cottiI2cWrite value regAddress) ≠ 0 then return ((-1 : Int), unit)
      return (0, unit) : StateM (List (U8 × U8)) (Int × TempUnit)) [] =
    ((writeRet result, unit), [(value, regAddress)]) := by
  unfold writeRet
  by_cases ok : result = 0
  · rw [ok]; rfl
  · rw [if_neg ok]
    show StateT.run (if result ≠ 0 then pure (-1, unit) else pure (0, unit)) [(value, regAddress)] = _
    rw [if_pos ok]
    rfl

theorem ioctl_freq : ioctl result ioctlCmdSetFreq (some operation) unit =
    ⟨writeRet result, unit, [((operation <<< 5).setWidth 8, regConfig)]⟩ :=
  congrArg (fun r => (⟨r.1.1, r.1.2, r.2⟩ : IoctlResult)) (write_run _ _)

theorem ioctl_mode : ioctl result ioctlCmdSetMode (some operation) unit =
    ⟨writeRet result, unit, [((operation ||| tempOversamplingX1).setWidth 8, regCtrlMeas)]⟩ :=
  congrArg (fun r => (⟨r.1.1, r.1.2, r.2⟩ : IoctlResult)) (write_run _ _)

theorem ioctl_unit : ioctl result ioctlCmdSetUnit (some operation) unit = ⟨0, operation, []⟩ := rfl

theorem ioctl_copy : ioctl result cmd none unit = ⟨-1, unit, []⟩ := rfl

theorem ioctl_unknown (freq : cmd ≠ ioctlCmdSetFreq) (mode : cmd ≠ ioctlCmdSetMode) (set : cmd ≠ ioctlCmdSetUnit) :
    ioctl result cmd (some operation) unit = ⟨-1, unit, []⟩ := by
  unfold ioctl charDeviceIoctl
  simp only [freq, mode, set, if_false]
  rfl

end Commands

/-! ## The bytes -/

/-- Truncation to a byte leaves the low three bits of a frequency. -/
theorem config_fields (freq : Freq) : standby ((freq <<< 5).setWidth 8) = freq.setWidth 3 ∧
    configRest ((freq <<< 5).setWidth 8) = 0 := by
  constructor
  · ext i hi
    simp [standby, show 5 + i < 8 by omega]
  · ext i hi
    simp [configRest, hi]

theorem ctrlMeas_fields {mode : Mode} (h : DeclaredMode mode) :
    osrsT ((mode ||| tempOversamplingX1).setWidth 8) = 1 ∧ osrsP ((mode ||| tempOversamplingX1).setWidth 8) = 0 ∧
      modeBits ((mode ||| tempOversamplingX1).setWidth 8) = mode.setWidth 2 := by
  rcases h with rfl | rfl | rfl <;> decide

/-- Celsius by default. -/
theorem convert_undeclared {unit : TempUnit} (h : ¬ DeclaredUnit unit) (temp : S32) : unit.convert temp = temp := by
  unfold DeclaredUnit at h
  simp only [not_or] at h
  unfold TempUnit.convert
  rw [if_neg h.1, if_neg h.2.2, if_neg h.2.1]

/-! ## The effect -/

/-- The effect of a declared enumerator. -/
inductive Exact (r : IoctlResult) (result operation : S32) (unit : TempUnit) : U32 → Prop where
  | freq (config : U8) (declared : DeclaredFreq operation)
      (effect : r = ⟨writeRet result, unit, [(config, regConfig)]⟩)
      (high : (standby config).toNat = operation.toNat) (low : configRest config = 0) :
      Exact r result operation unit ioctlCmdSetFreq
  | mode (ctrlMeas : U8) (declared : DeclaredMode operation)
      (effect : r = ⟨writeRet result, unit, [(ctrlMeas, regCtrlMeas)]⟩)
      (temperature : osrsT ctrlMeas = 1) (pressure : osrsP ctrlMeas = 0)
      (low : (modeBits ctrlMeas).toNat = operation.toNat) :
      Exact r result operation unit ioctlCmdSetMode
  | unit (declared : DeclaredUnit operation) (effect : r = ⟨0, operation, []⟩) :
      Exact r result operation unit ioctlCmdSetUnit

/-- The effect of another operation: a frequency is cut to its low three bits, and an
unknown unit is Celsius. -/
inductive Lenient (r : IoctlResult) (result operation : S32) (unit : TempUnit) : U32 → Prop where
  | freq (config : U8) (undeclared : ¬ DeclaredFreq operation)
      (effect : r = ⟨writeRet result, unit, [(config, regConfig)]⟩)
      (high : standby config = operation.setWidth 3) (low : configRest config = 0) :
      Lenient r result operation unit ioctlCmdSetFreq
  | mode (undeclared : ¬ DeclaredMode operation) : Lenient r result operation unit ioctlCmdSetMode
  | unit (undeclared : ¬ DeclaredUnit operation) (effect : r = ⟨0, operation, []⟩)
      (celsius : ∀ temp, TempUnit.convert operation temp = temp) :
      Lenient r result operation unit ioctlCmdSetUnit

theorem ioctl_declared_freq {operation : S32} (declared : DeclaredFreq operation) (result : S32) (unit : TempUnit) :
    Exact (ioctl result ioctlCmdSetFreq (some operation) unit) result operation unit ioctlCmdSetFreq := by
  obtain ⟨high, low⟩ := config_fields operation
  refine .freq _ declared ioctl_freq ?_ low
  unfold DeclaredFreq at declared
  rw [high, BitVec.toNat_setWidth]
  omega

theorem ioctl_declared_mode {operation : S32} (declared : DeclaredMode operation) (result : S32) (unit : TempUnit) :
    Exact (ioctl result ioctlCmdSetMode (some operation) unit) result operation unit ioctlCmdSetMode := by
  obtain ⟨temperature, pressure, low⟩ := ctrlMeas_fields declared
  refine .mode _ declared ioctl_mode temperature pressure ?_
  rw [low, BitVec.toNat_setWidth]
  rcases declared with rfl | rfl | rfl <;> rfl

/-- The copy fails or the command is unknown. -/
def Refused (cmd : U32) (operation : Option S32) : Prop :=
  operation = none ∨ (cmd ≠ ioctlCmdSetFreq ∧ cmd ≠ ioctlCmdSetMode ∧ cmd ≠ ioctlCmdSetUnit)

/-- **Every ioctl** is refused without effect, or has the exact effect of a declared
enumerator, or is lenient. -/
theorem ioctl_effect (result : S32) (cmd : U32) (operation : Option S32) (unit : TempUnit) :
    (Refused cmd operation ∧ ioctl result cmd operation unit = ⟨-1, unit, []⟩) ∨
    ∃ op, operation = some op ∧ (Exact (ioctl result cmd operation unit) result op unit cmd ∨
      Lenient (ioctl result cmd operation unit) result op unit cmd) := by
  cases operation with
  | none => exact .inl ⟨.inl rfl, ioctl_copy⟩
  | some op =>
    by_cases freq : cmd = ioctlCmdSetFreq
    · subst freq
      by_cases declared : DeclaredFreq op
      · exact .inr ⟨op, rfl, .inl (ioctl_declared_freq declared result unit)⟩
      · obtain ⟨high, low⟩ := config_fields op
        exact .inr ⟨op, rfl, .inr (.freq _ declared ioctl_freq high low)⟩
    by_cases mode : cmd = ioctlCmdSetMode
    · subst mode
      by_cases declared : DeclaredMode op
      · exact .inr ⟨op, rfl, .inl (ioctl_declared_mode declared result unit)⟩
      · exact .inr ⟨op, rfl, .inr (.mode declared)⟩
    by_cases set : cmd = ioctlCmdSetUnit
    · subst set
      by_cases declared : DeclaredUnit op
      · exact .inr ⟨op, rfl, .inl (.unit declared ioctl_unit)⟩
      · exact .inr ⟨op, rfl, .inr (.unit declared ioctl_unit (convert_undeclared declared))⟩
    · exact .inl ⟨.inr ⟨freq, mode, set⟩, ioctl_unknown freq mode set⟩

/-- Unit 7 is stored. -/
theorem undeclared_not_exact : ¬ ∀ (result : S32) (cmd : U32) (operation : Option S32) (unit : TempUnit),
    ioctl result cmd operation unit = ⟨-1, unit, []⟩ ∨
      ∃ op, operation = some op ∧ Exact (ioctl result cmd operation unit) result op unit cmd := by
  intro exact
  have effect := exact 0 ioctlCmdSetUnit (some 7) .celsius
  rw [ioctl_unit] at effect
  rcases effect with refused | ⟨op, same, effect⟩
  · cases refused
  · cases same
    generalize cmd : ioctlCmdSetUnit = c at effect
    cases effect with
    | freq | mode => exact absurd cmd (by decide)
    | unit declared => exact absurd declared (by unfold DeclaredUnit; decide)

end Beaglebone.CharDevice
