import Beaglebone.Machine.Run
import Beaglebone.Machine.Monitor
import Beaglebone.Machine.Word
import Beaglebone.Machine.Decimal
import Beaglebone.Machine.Poll
import Beaglebone.Machine.Script
import Beaglebone.Machine.UserCopy
import Beaglebone.Machine.Secret
import Beaglebone.Machine.Ledger
import Beaglebone.Machine.Ladder
import Beaglebone.Machine.Atomic
import Beaglebone.Machine.Client
import Beaglebone.Machine.Potential
import Beaglebone.Machine.Kthread
import Beaglebone.Machine.Callback
import Beaglebone.I2c.Registers
import Beaglebone.I2c.Call
import Beaglebone.I2c.Handler
import Beaglebone.I2c.System
import Beaglebone.I2c.Errors
import Beaglebone.I2c.BusBusy
import Beaglebone.I2c.Progress
import Beaglebone.I2c.Isolation
import Beaglebone.I2c.Index
import Beaglebone.I2c.Readers
import Beaglebone.I2c.Writers
import Beaglebone.I2c.Slave
import Beaglebone.I2c.Memory
import Beaglebone.I2c.Unanswered
import Beaglebone.Driver.Resources
import Beaglebone.Driver.Probe
import Beaglebone.Driver.Init
import Beaglebone.Driver.Balance
import Beaglebone.Driver.Clock
import Beaglebone.Driver.Polling
import Beaglebone.Driver.Access
import Beaglebone.Bmp280.Calls
import Beaglebone.Bmp280.Sampling
import Beaglebone.Bmp280.Compensation
import Beaglebone.Bmp280.Setup
import Beaglebone.Bmp280.Overflow
import Beaglebone.Bmp280.Accuracy
import Beaglebone.CharDevice.Calls
import Beaglebone.CharDevice.Read
import Beaglebone.CharDevice.Ioctl
import Beaglebone.CharDevice.System
import Beaglebone.CharDevice.HotPlug
import Beaglebone.Kernel.SendSignal
import Beaglebone.Kernel.WaitQueue
import Beaglebone.Kernel.Poll
import Beaglebone.Kernel.CharDevice
import Beaglebone.Kernel.Ioctl
import Beaglebone.Kernel.DtGpio
import Beaglebone.Kernel.PwmDriver
import Beaglebone.Kernel.DriverRead
import Beaglebone.Kernel.Lifecycle
import Beaglebone.Kernel.Modules
import Beaglebone.Kernel.Unload
import Beaglebone.Kernel.Callbacks
import Beaglebone.Kernel.Mutex
import Beaglebone.Kernel.StackBytes
import Beaglebone.Kernel.PollWait
