import Beaglebone.Machine.Decimal
import Beaglebone.Machine.Secret
import Beaglebone.Machine.UserCopy
import Mathlib.Data.BitVec

/-!
# `kernel/003_gpio_driver` and `kernel/015_procfs`: bytes of the stack

`driver_write` of the first module tests one byte that nothing has initialised, so that a
write of no bytes sets the LED as the stack has it; `driver_write` of the second prints
255 bytes that need not contain a NUL, and what follows them. Over any sequence of reads
and writes what is on the stack remains hidden exactly if there is no such write
(`stack_bytes_hidden_iff`).
-/

namespace Beaglebone.Kernel.StackBytes

open Machine

/-! ## `kernel/003_gpio_driver` -/

/-- A call of a file operation of `kernel/003_gpio_driver`, with the user's side of it and
what `gpio_get_value` returns. -/
inductive GpioCall where
  | write (text : List U8) (lost : Nat) (rest : Rest)
  | read (count lost : Nat) (button : Bool)

/-- What a call returns and hands to the user, and the LED after it. -/
structure GpioReply where
  value : Nat
  user : List U8 := []
  led : Bool
  deriving DecidableEq, Repr

/-- `value`, which is on the stack, after `copy_from_user`. -/
def gpioValue (text : List U8) (lost : Nat) (rest : Rest) (stack : U8) : U8 :=
  (copyFromUser rest [stack] 0 (text.take (min text.length 1)) lost).headD stack

/-- `switch(value)` -/
def gpioSet (led : Bool) (value : U8) : Bool :=
  if value = 0x30 then false else if value = 0x31 then true else led

/-- `tmp`: the button, a newline and a NUL. -/
def gpioText (button : Bool) : List U8 := [if button then 0x31 else 0x30, 0x0A, 0]

/-- `driver_write` and `driver_read` -/
def gpioStep (led : Bool) : GpioCall → U8 → Bool × GpioReply
  | .write text lost rest, stack =>
    let led := gpioSet led (gpioValue text lost rest stack)
    (led, { value := copied (min text.length 1) lost, led })
  | .read count lost button, _ =>
    let toCopy := min count (gpioText button).length
    (led, { value := copied toCopy lost, user := copyToUser ((gpioText button).take toCopy) lost, led })

/-- A byte is stored in `value`, the user's or a zero. -/
def GpioCall.Hides : GpioCall → Prop
  | write text lost rest => text ≠ [] ∧ (lost = 0 ∨ rest = .zeroed)
  | read .. => True

/-- The LED as the bytes that are accepted say. -/
def GpioCall.obeyed (led : Bool) : GpioCall → Bool
  | write text lost _ => gpioSet led ((text.take (copied (min text.length 1) lost)).headD 0)
  | read .. => led

/-- The LED after each call. -/
def GpioCall.levels : Bool → List GpioCall → List Bool
  | _, [] => []
  | led, c :: cs => c.obeyed led :: levels (c.obeyed led) cs

/-! ## `kernel/015_procfs` -/

/-- `sizeof(text)` in `driver_write` -/
def textSize : Nat := 255

/-- `RETURNED_ON_READ`, with its NUL -/
def returnedOnRead : List U8 := ascii "Hello from a procfs file!\n".toList ++ [0]

inductive ProcCall where
  | write (text : List U8) (lost : Nat) (rest : Rest)
  | read (count lost : Nat)

structure ProcReply where
  value : Nat
  user : List U8 := []
  /-- the string in `"You have written: \"%s\"\n"` -/
  printed : Option (List U8) := none
  deriving DecidableEq, Repr

/-- The bytes that a write accepts. -/
def procAccepted (text : List U8) (lost : Nat) : List U8 := text.take (copied (min text.length textSize) lost)

/-- `driver_write` and `driver_read`; `behind` are the bytes that follow `text` on the
stack. -/
def procStep (_ : Unit) : ProcCall → List U8 → Unit × ProcReply
  | .write text lost rest, behind =>
    let toCopy := min text.length textSize
    let buffer := copyFromUser rest (List.replicate textSize 0) 0 (text.take toCopy) lost
    ((), { value := copied toCopy lost, printed := some (cstring (buffer ++ behind)) })
  | .read count lost, _ =>
    let toCopy := min count returnedOnRead.length
    ((), { value := copied toCopy lost, user := copyToUser (returnedOnRead.take toCopy) lost })

/-- The text ends inside the buffer. -/
def ProcCall.Hides : ProcCall → Prop
  | write text lost _ => (procAccepted text lost).length < textSize ∨ 0 ∈ procAccepted text lost
  | read .. => True

section

variable {text : List U8} {lost : Nat} {rest : Rest}

/-- The byte that is stored. -/
theorem gpioValue_stored {stack : U8} (some_byte : text ≠ []) (stored : lost = 0 ∨ rest = .zeroed) :
    gpioValue text lost rest stack = (text.take (copied (min text.length 1) lost)).headD 0 := by
  cases text with
  | nil => exact absurd rfl some_byte
  | cons b t =>
    have one : min (b :: t).length 1 = 1 := by simp
    rw [gpioValue, one]
    cases lost with
    | zero => simp [copyFromUser_complete, store]
    | succ n =>
      have zeroed : rest = .zeroed := stored.resolve_left (by omega)
      simp [zeroed, copyFromUser, store, copied, notCopied]

theorem gpioValue_stack {stack : U8} (none : ¬ (text ≠ [] ∧ (lost = 0 ∨ rest = .zeroed))) :
    gpioValue text lost rest stack = stack := by
  cases text with
  | nil => cases rest <;> simp [gpioValue, copyFromUser, store, notCopied]
  | cons b t =>
    simp only [ne_eq, reduceCtorEq, not_false_eq_true, true_and, not_or] at none
    obtain ⟨some_lost, kept⟩ := none
    obtain ⟨n, rfl⟩ := Nat.exists_eq_succ_of_ne_zero some_lost
    cases rest with
    | zeroed => exact absurd rfl kept
    | kept => simp [gpioValue, copyFromUser, store, copied, notCopied]

theorem gpio_hides {c : GpioCall} (hides : c.Hides) (led : Bool) (stack stack' : U8) :
    gpioStep led c stack = gpioStep led c stack' := by
  cases c with
  | read => rfl
  | write text lost rest =>
    simp only [gpioStep]
    rw [gpioValue_stored hides.1 hides.2, gpioValue_stored hides.1 hides.2]

theorem gpio_obeys {c : GpioCall} (hides : c.Hides) (led : Bool) (stack : U8) : (gpioStep led c stack).1 = c.obeyed led := by
  cases c with
  | read => rfl
  | write text lost rest =>
    simp only [gpioStep, GpioCall.obeyed]
    rw [gpioValue_stored hides.1 hides.2]

theorem gpio_tells {c : GpioCall} (tells : ¬ c.Hides) (led : Bool) :
    ∃ stack stack', (gpioStep led c stack).2 ≠ (gpioStep led c stack').2 := by
  cases c with
  | read => exact absurd trivial tells
  | write text lost rest =>
    refine ⟨0x30, 0x31, fun same => ?_⟩
    have leds := congrArg GpioReply.led same
    simp only [gpioStep, gpioValue_stack tells] at leds
    exact absurd leds (by cases led <;> decide)

theorem tried_length (text : List U8) : (text.take (min text.length textSize)).length = min text.length textSize :=
  length_take_min text textSize

theorem tried_fits (text : List U8) : (text.take (min text.length textSize)).length ≤ textSize := by
  rw [tried_length]
  exact Nat.min_le_right ..

/-- Of the bytes that `copy_from_user` is given. -/
theorem hides_iff : (ProcCall.write text lost rest).Hides ↔
    copied (text.take (min text.length textSize)).length lost < textSize ∨
      0 ∈ (text.take (min text.length textSize)).take (copied (text.take (min text.length textSize)).length lost) := by
  have le : copied (min text.length textSize) lost ≤ min text.length textSize := copied_le
  have length : (procAccepted text lost).length = copied (min text.length textSize) lost := by
    rw [procAccepted, List.length_take]
    omega
  rw [tried_length, List.take_take, Nat.min_eq_left le, ProcCall.Hides, length]
  rfl

theorem proc_hides {c : ProcCall} (hides : c.Hides) (s : Unit) (behind behind' : List U8) :
    procStep s c behind = procStep s c behind' := by
  cases c with
  | read => rfl
  | write text lost rest => simp only [procStep, cstring_copyFromUser (tried_fits text) (hides_iff.1 hides)]

theorem proc_tells {c : ProcCall} (tells : ¬ c.Hides) (s : Unit) :
    ∃ behind behind', (procStep s c behind).2 ≠ (procStep s c behind').2 := by
  cases c with
  | read => exact absurd trivial tells
  | write text lost rest =>
    refine ⟨[], [1], fun same => ?_⟩
    have lines := congrArg ProcReply.printed same
    simp only [procStep, cstring_copyFromUser_full (tried_fits text) (mt hides_iff.2 tells)] at lines
    simp [cstring] at lines

end

/-- **The stack remains hidden.** Over every sequence of reads and writes of
`kernel/003_gpio_driver`, and of `kernel/015_procfs`, what the calls do is the same
whatever is on the stack exactly if each write hides it; the LED then is as the bytes that
are accepted say. -/
theorem stack_bytes_hidden_iff :
    (∀ (led : Bool) (cs : List GpioCall), ((∀ stack stack' : Nat → U8,
      outputs gpioStep led cs stack = outputs gpioStep led cs stack') ↔ ∀ c ∈ cs, c.Hides) ∧
      ((∀ c ∈ cs, c.Hides) → ∀ stack : Nat → U8,
        (outputs gpioStep led cs stack).map GpioReply.led = GpioCall.levels led cs)) ∧
    ∀ cs : List ProcCall, (∀ behind behind' : Nat → List U8,
      outputs procStep () cs behind = outputs procStep () cs behind') ↔ ∀ c ∈ cs, c.Hides := by
  refine ⟨fun led cs => ⟨?_, fun hides stack => ?_⟩, fun cs => ?_⟩
  · exact independent_iff (fun led c x x' hides => gpio_hides hides led x x') (fun led c tells => gpio_tells tells led) led cs
  · induction cs generalizing led stack with
    | nil => rfl
    | cons c cs ih =>
      have first := gpio_obeys (hides c (List.mem_cons_self ..)) led (stack 0)
      have shown : (gpioStep led c (stack 0)).2.led = (gpioStep led c (stack 0)).1 := by cases c <;> rfl
      rw [outputs, List.map_cons, GpioCall.levels, shown, first]
      exact congrArg _ (ih (c.obeyed led) (fun c mem => hides c (List.mem_cons_of_mem _ mem)) fun n => stack (n + 1))
  · exact independent_iff (fun s c x x' hides => proc_hides hides s x x') (fun s c tells => proc_tells tells s) () cs

end Beaglebone.Kernel.StackBytes
