import Beaglebone.Bmp280.Calls

/-!
# `kernel/019_dt_i2c`: the same sensor through the kernel's I2C core

The calibration that `i2c_probe` stores and `read_temperature`, over the two SMBus
functions that they call.
-/

namespace Beaglebone.Kernel.DtI2c

open Machine
open Bmp280 (Calibration)

/-- `i2c_smbus_read_byte_data(client, address)` and
`i2c_smbus_read_word_data(client, address)`. -/
structure Smbus (m : Type → Type) where
  readByteData : U8 → m S32
  readWordData : U8 → m S32

section Functions

variable {m : Type → Type} [Monad m] (bus : Smbus m)

/-- `if(dig_T > 32767) dig_T -= 65536;` -/
def toSigned (digT : S32) : S32 := if digT.toInt > 32767 then digT - 65536 else digT

/-- The calibration values in `i2c_probe`. -/
def i2cProbe : m Calibration := do
  let digT1 ← bus.readWordData 0x88
  let digT2 ← bus.readWordData 0x8A
  let digT3 ← bus.readWordData 0x8C
  return ⟨digT1, toSigned digT2, toSigned digT3⟩

def readTemperature (c : Calibration) : m S32 := do
  let d1 ← bus.readByteData 0xFA
  let d2 ← bus.readByteData 0xFB
  let d3 ← bus.readByteData 0xFC
  let rawTemp := ((d1 <<< 16) ||| (d2 <<< 8) ||| d3).sshiftRight 4
  let var1 := ((rawTemp.sshiftRight 3 - c.digT1 <<< 1) * c.digT2).sshiftRight 11
  let var2 := (((rawTemp.sshiftRight 4 - c.digT1) * (rawTemp.sshiftRight 4 - c.digT1)).sshiftRight 12
    * c.digT3).sshiftRight 14
  return ((var1 + var2) * 5 + 128).sshiftRight 8

end Functions

end Beaglebone.Kernel.DtI2c
