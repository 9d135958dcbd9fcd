import Beaglebone.Bmp280.Calls
import Beaglebone.Machine.Decimal

/-!
# The file operations of `char_device.c`

`char_device_read` and `char_device_ioctl`, in any monad in which the two functions
of `cotti_i2c.c` run. The user's side of a call is an argument: what
`copy_from_user` copied, and how many bytes at the end `copy_to_user` did not copy.
-/

namespace Beaglebone.CharDevice

open Machine Bmp280

/-- `sizeof(out_string)` -/
def outStringSize : Nat := 10

/-- `out_string` up to its NUL: `"%d.%02d\n"` of `temperature/100` and `temperature%100`. -/
def outString (temperature : S32) : List Char :=
  snprintf outStringSize
    (printD (temperature.sdiv 100).toInt ++ '.' :: (printZeroD 2 (temperature.srem 100).toInt ++ ['\n']))

/-- `_IOR(type, nr, size)`, with the direction in the upper two bits. -/
def ior (type nr size : U32) : U32 := 2 <<< 30 ||| size <<< 16 ||| type <<< 8 ||| nr

/-- `MAGIC_NUMBER` is `'c'`, and the argument a pointer of four bytes. -/
def ioctlCmdSetFreq : U32 := ior 0x63 1 4
def ioctlCmdSetMode : U32 := ior 0x63 2 4
def ioctlCmdSetUnit : U32 := ior 0x63 3 4

section Functions

variable {m : Type → Type} [Monad m] (bus : Bus m)

/-- `char_device_read` of `count` bytes, the last `lost` of which cannot be copied:
its value and the bytes that reach the user. -/
def charDeviceRead (c : Calibration) (unit : TempUnit) (count lost : Nat) : m (Int × List Char) := do
  let temperature ← bmp280ReadTemperature bus c unit
  if temperature = bmp280Error then return (-1, [])
  let out := outString temperature
  -- with the NUL
  let toCopy := min count (out.length + 1)
  let notCopied := min lost toCopy
  return ((toCopy - notCopied : Int), (out ++ [Char.ofNat 0]).take (toCopy - notCopied))

/-- `char_device_ioctl`: its value and `g_unit` after it. `operation` is what
`copy_from_user` copied, if it did. -/
def charDeviceIoctl (cmd : U32) (operation : Option S32) (unit : TempUnit) : m (Int × TempUnit) :=
  match operation with
  | none => return (-1, unit)
  | some operation => do
    if cmd = ioctlCmdSetFreq then
      if (← bmp280SetFrequency bus operation) ≠ 0 then return (-1, unit)
      return (0, unit)
    else if cmd = ioctlCmdSetMode then
      if (← bmp280SetMode bus operation) ≠ 0 then return (-1, unit)
      return (0, unit)
    else if cmd = ioctlCmdSetUnit then return (0, bmp280SetUnit operation)
    else return (-1, unit)

end Functions

end Beaglebone.CharDevice
