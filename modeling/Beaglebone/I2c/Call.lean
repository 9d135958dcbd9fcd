import Beaglebone.Machine.Monitor
import Beaglebone.I2c.Registers

/-!
# `cotti_i2c_write` and `cotti_i2c_read`, statement by statement

The static variables of `cotti_i2c.c` and the registers that the functions and
the handler share are `Shared`. A process in a call is at a `Pc`, one for each
source statement that reads or writes something shared. `Proc.run` executes the
statement under the input that the environment gives it: the wait of a statement
may elapse (`timeout`) or be cut short by a pending signal (`signal`).

Beside the program's own state, `Shared` and `Proc` carry a history that the
program never reads: the STARTs issued so far, numbered from 1, which START
caused each completion and the byte in `g_read`, and what the calls consumed and
pushed. Completions are lists of the STARTs that caused them; the kernel's
`done` counter is the length of the list.
-/

namespace Beaglebone.I2c

open Machine

/-- The arguments of one call. -/
inductive Call where
  | write (value regAddress slaveAddress : U8)
  | read (address slaveAddress : U8)
  deriving DecidableEq, Repr

def Call.slaveAddress : Call → U8
  | .write _ _ a | .read _ a => a

/-- The first phase of a call transmits; a read has a second one that receives. -/
inductive Phase where
  | tx
  | rx
  deriving DecidableEq, Repr

/-- The argument of `prv_set_count`. -/
def Call.count : Call → Phase → U16
  | .write .., _ => 2
  | .read .., _ => 1

/-- The word written to CON to issue a START. -/
def conWord : Phase → U32
  | .tx => i2cBitEnable ||| i2cBitMasterMode ||| i2cBitStart ||| i2cBitTx ||| i2cBitStop
  | .rx => i2cBitEnable ||| i2cBitMasterMode ||| i2cBitStart ||| i2cBitStop

/-- How a call leaves its critical section. -/
inductive Outcome where
  | done
  | failed
  deriving DecidableEq, Repr

/-- The statement a process is at. -/
inductive Pc where
  /-- no call in progress -/
  | idle
  /-- `prv_wakeup`: write the clock control register -/
  | wakeup
  /-- `prv_wakeup`: `while(prv_is_clk_disabled());` -/
  | clkPoll
  /-- `prv_wait_for_bus_busy`, with its counter -/
  | busPoll (i : U8)
  | lock
  | setSlave
  /-- `prv_set_count`: `g_len` -/
  | setLen (ph : Phase)
  /-- `prv_set_count`: CNT -/
  | setCnt (ph : Phase)
  /-- `g_write[1] = reg_address` -/
  | putReg
  /-- `g_write[0] = value` or `address` -/
  | putLow
  | clearFifo
  | start (ph : Phase)
  /-- `wait_event_interruptible_timeout(wq_write, !g_len, …)` -/
  | waitLen
  | waitRead
  | waitStop (ph : Phase)
  | reinitRead (o : Outcome)
  | reinitStop (ph : Phase) (o : Outcome)
  | unlock (o : Outcome)
  /-- the `return` statement -/
  | leave (o : Outcome)
  deriving DecidableEq, Repr

/-- What the controller knows of one START, and what it has raised for it. -/
structure Start where
  tx : Bool := false
  cnt : U16 := 0
  sa : U32 := 0
  /-- XRDY interrupts raised -/
  xrdy : Nat := 0
  /-- bytes pushed to DATA while this is the latest START -/
  sent : Nat := 0
  /-- the byte received, once RRDY has been raised -/
  rx : Option U8 := none
  /-- ARDY has been raised -/
  ardy : Bool := false
  deriving DecidableEq, Repr

/-- The statement of `prv_isr` that is next, with the word `irq` it works on. -/
inductive Isr where
  | off
  /-- `while(enabled & (irq = …))` -/
  | test
  /-- `if (irq & I2C_IRQ_ARDY) complete(&comp_stop)` -/
  | ardy (irq : U16)
  /-- `if (irq & I2C_IRQ_RRDY) { g_len--` -/
  | rrdyLen (irq : U16)
  /-- `g_read = prv_read()` -/
  | rrdyData (irq : U16)
  /-- `complete(&comp_read) }` -/
  | rrdyDone (irq : U16)
  /-- `if (irq & I2C_IRQ_XRDY) { g_len--` -/
  | xrdyLen (irq : U16)
  /-- `prv_write(g_write[g_len])` -/
  | xrdyData (irq : U16)
  /-- `wake_up_interruptible(&wq_write) }` -/
  | xrdyWake (irq : U16)
  /-- `iowrite16(irq, …IRQSTATUS)` -/
  | ack (irq : U16)
  deriving DecidableEq, Repr

structure Shared where
  gRead : U8 := 0
  gWrite0 : U8 := 0
  gWrite1 : U8 := 0
  gLen : U16 := 0
  compRead : List Nat := []
  compStop : List Nat := []
  sa : U32 := 0
  cnt : U16 := 0
  status : U16 := 0
  data : U8 := 0
  isr : Isr := .off
  /-- history: the STARTs issued, and the number of the latest -/
  starts : Nat → Start := fun _ => {}
  nstart : Nat := 0
  /-- history: the START that last raised ARDY, the one whose byte DATA holds, and
  the one whose byte `g_read` holds -/
  ardyBy : Nat := 0
  dataBy : Nat := 0
  readBy : Nat := 0
  /-- history: the bytes pushed to DATA since `lock_bus` was last taken, each with
  the START it was pushed for; `none` is a byte from beyond `g_write` -/
  pushed : List (Nat × Option U8) := []
  /-- history: every completion consumed, as the START that caused it and the
  START that waited for it -/
  taken : List (Nat × Nat) := []

/-- A process: where it is in which call, and the history of that call. -/
structure Proc where
  pc : Pc := .idle
  call : Call := .read 0 0
  /-- the STARTs of the two phases -/
  tx : Nat := 0
  rx : Nat := 0
  /-- the completions consumed since the call's last START -/
  gotRead : Option Nat := none
  gotStop : Option Nat := none
  /-- `mutex_lock` and `mutex_unlock` executed -/
  locks : Nat := 0
  unlocks : Nat := 0
  /-- what was pushed to DATA between them -/
  sent : List (Nat × Option U8) := []
  /-- the samples of `prv_wait_for_bus_busy` -/
  samples : List Sample := []

/-- One returned call with its history; `txStart` and `rxStart` are its STARTs as
the controller saw them. -/
structure Ret where
  call : Call
  value : Int
  tx : Nat
  rx : Nat
  txStart : Start
  rxStart : Start
  gotRead : Option Nat
  gotStop : Option Nat
  locks : Nat
  unlocks : Nat
  sent : List (Nat × Option U8)
  deriving DecidableEq, Repr

/-- The input of one statement: begin a call, execute, find the clock still
disabled, or have a wait elapse or be interrupted. -/
inductive Input where
  | call (c : Call)
  | go
  | spin
  | timeout
  | signal
  deriving DecidableEq, Repr

def Proc.goto (l : Proc) (pc : Pc) : Proc := { l with pc := pc }

/-- The value of the `return` statement. -/
def Proc.retval (l : Proc) (s : Shared) : Outcome → Int
  | .failed => -1
  | .done => match l.call with
    | .write .. => 0
    | .read .. => s.gRead.toNat

def Proc.ret (l : Proc) (s : Shared) (o : Outcome) : Ret where
  call := l.call
  value := l.retval s o
  tx := l.tx
  rx := l.rx
  txStart := s.starts l.tx
  rxStart := s.starts l.rx
  gotRead := l.gotRead
  gotStop := l.gotStop
  locks := l.locks
  unlocks := l.unlocks
  sent := l.sent

/-- The number of the next START. -/
def Shared.next (s : Shared) : Nat := s.nstart + 1

/-- The write of `conWord ph` to CON: the controller begins a new transaction. -/
def Shared.issue (s : Shared) (ph : Phase) : Shared :=
  { s with
    nstart := s.next
    starts := upd s.starts s.next
      { tx := isSet (conWord ph) i2cBitTx, cnt := s.cnt, sa := s.sa } }

/-- The call's record of its new START. -/
def Proc.issued (l : Proc) (t : Nat) : Phase → Proc
  | .tx => { l with tx := t, gotRead := none, gotStop := none }
  | .rx => { l with rx := t, gotRead := none, gotStop := none }

/-- The START a phase waits for. -/
def Proc.startOf (l : Proc) : Phase → Nat
  | .tx => l.tx
  | .rx => l.rx

/-- The statement after CNT is set. -/
def Proc.afterCnt (l : Proc) : Phase → Pc
  | .rx => .start .rx
  | .tx => match l.call with
    | .write .. => .putReg
    | .read .. => .putLow

def afterStart : Phase → Pc
  | .tx => .waitLen
  | .rx => .waitRead

/-- The statement after `comp_stop` has been waited for. -/
def Proc.afterStop (l : Proc) : Phase → Pc
  | .rx => .reinitRead .done
  | .tx => match l.call with
    | .write .. => .reinitStop .tx .done
    | .read .. => .setLen .rx

/-- The cleanup after a wait of the phase has elapsed. -/
def afterTimeout : Phase → Pc
  | .tx => .reinitStop .tx .failed
  | .rx => .reinitRead .failed

def Proc.afterReinitRead : Outcome → Pc
  | .done => .unlock .done
  | .failed => .reinitStop .rx .failed

/-- `g_write[1]` of a write. -/
def Call.highByte : Call → U8
  | .write _ r _ => r
  | .read .. => 0

/-- `g_write[0]`. -/
def Call.lowByte : Call → U8
  | .write v _ _ => v
  | .read a _ => a

/-- A wait for a completion: it consumes one if there is one, and can elapse only
if there is none. -/
def Proc.wait (comp : List Nat) (taken : Nat → List Nat → Move Proc Shared Ret)
    (elapsed : Move Proc Shared Ret) : Input → Option (Move Proc Shared Ret)
  | .go => match comp with
    | [] => none
    | t :: ts => some (taken t ts)
  | .timeout => if comp.isEmpty then some elapsed else none
  | _ => none

/-- Execute the statement of a process. `locked` is `mutex_is_locked(&lock_bus)`. -/
def Proc.run (locked : Bool) (l : Proc) (s : Shared) (i : Input) : Option (Move Proc Shared Ret) :=
  match l.pc, i with
  | .idle, .call c => some { loc := { pc := .wakeup, call := c }, shared := s }
  | .wakeup, .go => some { loc := l.goto .clkPoll, shared := s }
  | .clkPoll, .spin => some { loc := l, shared := s }
  | .clkPoll, .go => some { loc := l.goto (.busPoll 0), shared := s }
  | .busPoll i, .go =>
    let x : Sample := ⟨s.status, locked⟩
    let l' := { l with samples := l.samples ++ [x] }
    match pollNext busPollLimit i x.busy with
    | .again j => some { loc := l'.goto (.busPoll j), shared := s }
    | .fail => some { loc := l'.goto (.leave .failed), shared := s }
    | .pass => some { loc := l'.goto .lock, shared := s }
  | .lock, .go => some { loc := { l with pc := .setSlave, locks := l.locks + 1 },
                         shared := { s with pushed := [] }, op := .acquire }
  | .setSlave, .go => some { loc := l.goto (.setLen .tx),
                             shared := { s with sa := l.call.slaveAddress.setWidth 32 } }
  | .setLen ph, .go =>
    let count := l.call.count ph
    some { loc := l.goto (.setCnt ph), shared := { s with gLen := if count ≤ 2 then count else 2 } }
  | .setCnt ph, .go => some { loc := l.goto (l.afterCnt ph),
                              shared := { s with cnt := l.call.count ph } }
  | .putReg, .go => some { loc := l.goto .putLow, shared := { s with gWrite1 := l.call.highByte } }
  | .putLow, .go => some { loc := l.goto .clearFifo, shared := { s with gWrite0 := l.call.lowByte } }
  -- BUF: both FIFOs are emptied, so DATA holds no received byte any more
  | .clearFifo, .go => some { loc := l.goto (.start .tx), shared := { s with data := 0, dataBy := 0 } }
  | .start ph, .go => some { loc := (l.issued s.next ph).goto (afterStart ph), shared := s.issue ph }
  | .waitLen, .go =>
    if s.gLen = 0 then some { loc := l.goto (.waitStop .tx), shared := s } else none
  -- a signal makes the wait return -ERESTARTSYS, which is not 0: the call goes on
  | .waitLen, .signal =>
    if s.gLen = 0 then none else some { loc := l.goto (.waitStop .tx), shared := s }
  | .waitLen, .timeout =>
    if s.gLen = 0 then none else some { loc := l.goto (afterTimeout .tx), shared := s }
  | .waitRead, i => Proc.wait s.compRead
    (fun t ts => { loc := { l with pc := .waitStop .rx, gotRead := some t },
                   shared := { s with compRead := ts, taken := s.taken ++ [(t, l.rx)] } })
    { loc := l.goto (afterTimeout .rx), shared := s } i
  | .waitStop ph, i => Proc.wait s.compStop
    (fun t ts => { loc := { l with pc := l.afterStop ph, gotStop := some t },
                   shared := { s with compStop := ts, taken := s.taken ++ [(t, l.startOf ph)] } })
    { loc := l.goto (afterTimeout ph), shared := s } i
  | .reinitRead o, .go => some { loc := l.goto (Proc.afterReinitRead o),
                                 shared := { s with compRead := [] } }
  | .reinitStop _ o, .go => some { loc := l.goto (.unlock o), shared := { s with compStop := [] } }
  | .unlock o, .go => some { loc := { l with pc := .leave o, unlocks := l.unlocks + 1,
                                             sent := s.pushed },
                             shared := s, op := .release }
  | .leave o, .go => some { loc := l.goto .idle, shared := s, out := some (l.ret s o) }
  | _, _ => none

/-- The statements between `mutex_lock` and `mutex_unlock`. -/
def Pc.inside : Pc → Bool
  | .idle | .wakeup | .clkPoll | .busPoll _ | .lock | .leave _ => false
  | _ => true

end Beaglebone.I2c
