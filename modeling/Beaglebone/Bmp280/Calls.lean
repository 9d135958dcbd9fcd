import Beaglebone.Machine.Word

/-!
# `bmp280.c` over an I2C bus

The functions of the temperature sensor, in any monad in which the two functions
of `cotti_i2c.c` run: reads that fail, a sensor that changes between two reads, or
a bus without failures are three such monads. The three modes, eight frequencies
and three units of `bmp280_types.h` are numbers here: an ioctl casts any `int` to
these types.
-/

namespace Beaglebone.Bmp280

open Machine

/-- `cotti_i2c_read(address, slave_address)` and
`cotti_i2c_write(value, reg_address, slave_address)`. -/
structure Bus (m : Type → Type) where
  cottiI2cRead : U8 → m S32
  cottiI2cWrite : U8 → U8 → m S32

/-- What `cotti_i2c_read` returns: the byte read, or -1. -/
def readValue : Option U8 → S32
  | none => -1
  | some b => b.setWidth 32

/-- What `cotti_i2c_write` returns: 0, or -1. -/
def writeValue : Option U8 → S32
  | none => -1
  | some _ => 0

def regDigT1Lsb : U8 := 0x88
def regDigT1Msb : U8 := 0x89
def regDigT2Lsb : U8 := 0x8A
def regDigT2Msb : U8 := 0x8B
def regDigT3Lsb : U8 := 0x8C
def regDigT3Msb : U8 := 0x8D
def regId : U8 := 0xD0
def regCtrlMeas : U8 := 0xF4
def regConfig : U8 := 0xF5
def regTempMsb : U8 := 0xFA
def regTempLsb : U8 := 0xFB
def regTempXlsb : U8 := 0xFC

def tempOversamplingX1 : U32 := 1#32 <<< 5

def bmp280Id : U8 := 0x58

def bmp280Error : S32 := -6666

/-- `bmp280_mode` -/
abbrev Mode := U32

def Mode.sleep : Mode := 0
def Mode.forced : Mode := 1
def Mode.normal : Mode := 3

/-- `bmp280_freq`; `FREQ_1` is 5. -/
abbrev Freq := U32

def Freq.freq1 : Freq := 5

/-- `bmp280_unit` -/
abbrev TempUnit := U32

def TempUnit.celsius : TempUnit := 0
def TempUnit.kelvin : TempUnit := 1
def TempUnit.fahrenheit : TempUnit := 2

/-- `g_unit` after `bmp280_set_unit(unit)`. -/
def bmp280SetUnit (unit : TempUnit) : TempUnit := unit

/-- `dig_T1`, `dig_T2` and `dig_T3`. -/
structure Calibration where
  digT1 : S32
  digT2 : S32
  digT3 : S32
  deriving DecidableEq, Repr

section Functions

variable {m : Type → Type} [Monad m] (bus : Bus m)

def bmp280SetMode (mode : Mode) : m S32 :=
  bus.cottiI2cWrite ((mode ||| tempOversamplingX1).setWidth 8) regCtrlMeas

def bmp280SetFrequency (freq : Freq) : m S32 := bus.cottiI2cWrite ((freq <<< 5).setWidth 8) regConfig

def bmp280IsConnected : m S32 := do
  let id : U8 := (← bus.cottiI2cRead regId).setWidth 8
  -- `id` is a `u8`, so this comparison with -1 is between a byte and an `int`
  if id.setWidth 32 = (-1 : S32) then return 0
  if id ≠ bmp280Id then return 0
  return 1

/-- One calibration value: `cotti_i2c_read(msb) << 8 | cotti_i2c_read(lsb)`. -/
def readWord (msb lsb : U8) : m S32 := do
  let high ← bus.cottiI2cRead msb
  let low ← bus.cottiI2cRead lsb
  return high <<< 8 ||| low

/-- `bmp280_init` once the node and the slave address have been found: the return
value and the calibration it leaves. -/
def bmp280Init (old : Calibration) : m (S32 × Calibration) := do
  if (← bmp280IsConnected bus) = 0 then return (-1, old)
  let digT1 ← readWord bus regDigT1Msb regDigT1Lsb
  let digT2 ← readWord bus regDigT2Msb regDigT2Lsb
  let digT3 ← readWord bus regDigT3Msb regDigT3Lsb
  let _ ← bmp280SetFrequency bus .freq1
  let _ ← bmp280SetMode bus .normal
  return (0, ⟨digT1, digT2, digT3⟩)

/-- `((d1<<16) | (d2<<8) | d3) >> 4` -/
def rawTemp (d1 d2 d3 : S32) : S32 := ((d1 <<< 16) ||| (d2 <<< 8) ||| d3).sshiftRight 4

/-- The three reads of `bmp280_read_temperature`; `none` when one of them fails. -/
def readRawTemp : m (Option S32) := do
  let d1 ← bus.cottiI2cRead regTempMsb
  if d1 = -1 then return none
  let d2 ← bus.cottiI2cRead regTempLsb
  if d2 = -1 then return none
  let d3 ← bus.cottiI2cRead regTempXlsb
  if d3 = -1 then return none
  return some (rawTemp d1 d2 d3)

/-- `temp` in °C. -/
def Calibration.temp (c : Calibration) (rawTemp : S32) : S32 :=
  let var1 := ((rawTemp.sshiftRight 3 - c.digT1 <<< 1) * c.digT2).sshiftRight 11
  let var2 := (((rawTemp.sshiftRight 4 - c.digT1) * (rawTemp.sshiftRight 4 - c.digT1)).sshiftRight 12
    * c.digT3).sshiftRight 14
  ((var1 + var2) * 5 + 128).sshiftRight 8

/-- The conversion to `g_unit`; an unknown unit is Celsius. -/
def TempUnit.convert (unit : TempUnit) (temp : S32) : S32 :=
  if unit = celsius then temp
  else if unit = fahrenheit then (temp * 9).sdiv 5 + 3200
  else if unit = kelvin then temp + 27315
  else temp

def bmp280ReadTemperature (c : Calibration) (unit : TempUnit) : m S32 := do
  match ← readRawTemp bus with
  | none => return bmp280Error
  | some raw => return unit.convert (c.temp raw)

end Functions

end Beaglebone.Bmp280
