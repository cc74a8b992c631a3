import LowPower.Lib.Index
import LowPower.Lib.BitMatrix
import LowPower.Lib.Votes
import LowPower.Lib.History
import LowPower.Lib.Announce
import LowPower.Lib.Window
import LowPower.Lib.Carry
import LowPower.Lib.Pended
import LowPower.Lib.Tally
import LowPower.Lib.Counter
import LowPower.Lib.Scale
import LowPower.Lib.Slots
import LowPower.Lib.Table
import LowPower.Lib.Accounts
import LowPower.Lib.Base64
import LowPower.Lib.Loop
import LowPower.Lib.Dda
import LowPower.Lib.Ring
import LowPower.Lib.Serial
import LowPower.Lib.Place
import LowPower.Spec.Lpms
import LowPower.Spec.Interface
import LowPower.Spec.Tickless
import LowPower.Proof.Frame
import LowPower.Proof.Emits
import LowPower.Proof.Decision
import LowPower.Proof.Votes
import LowPower.Proof.SleepVotes
import LowPower.Proof.Freq
import LowPower.Proof.Converge
import LowPower.Proof.FreqOrder
import LowPower.Proof.Announce
import LowPower.Proof.Busy
import LowPower.Proof.Pass
import LowPower.Spec.Driver
import LowPower.Spec.Pm
import LowPower.Spec.PmPass
import LowPower.Proof.PmRequests
import LowPower.Proof.PmVotes
import LowPower.Proof.PmPass
import LowPower.Proof.PmFrame
import LowPower.Proof.PmRunMode
import LowPower.Proof.PmSleep
import LowPower.Proof.PmTimer
import LowPower.Proof.PmDevices
import LowPower.Proof.Clock
import LowPower.Proof.Wakeup
import LowPower.Proof.Asked
import LowPower.Proof.Deadlines
import LowPower.Proof.Compensation
import LowPower.Spec.Lptim
import LowPower.Proof.Conversion
import LowPower.Proof.Lptim
import LowPower.Proof.TickPort
import LowPower.Proof.OptionalOps
import LowPower.Proof.Hooks
import LowPower.Proof.PmDelay
import LowPower.Spec.Shell
import LowPower.Spec.PmDevice
import LowPower.Proof.Shell
import LowPower.Proof.PmStatus
import LowPower.Proof.PmTable
import LowPower.Proof.PmBounds
import LowPower.Spec.WifiConfig
import LowPower.Proof.WifiConfig
import LowPower.Spec.Lcd
import LowPower.Proof.Lcd
import LowPower.Proof.LcdLine
import LowPower.Spec.Timer
import LowPower.Proof.TimerLists
import LowPower.Proof.Timer
import LowPower.Proof.TimerCheck
import LowPower.Spec.TimerCalls
import LowPower.Proof.TimerCalls
import LowPower.Proof.TimerRuns
import LowPower.Lib.Crc
import LowPower.Lib.Recent
import LowPower.Spec.WlanCfg
import LowPower.Proof.WlanCfg
import LowPower.Proof.WlanStore
import LowPower.Lib.Ram
import LowPower.Lib.Blocks
import LowPower.Spec.Heap
import LowPower.Proof.HeapLayout
import LowPower.Proof.Heap
import LowPower.Proof.HeapRuns
import LowPower.Proof.Realloc
