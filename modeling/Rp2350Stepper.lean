import Rp2350Stepper.Semantics.Execution
import Rp2350Stepper.Semantics.Schedules
import Rp2350Stepper.Semantics.Program
import Rp2350Stepper.Semantics.Concurrent
import Rp2350Stepper.Semantics.Locking
import Rp2350Stepper.Semantics.Semaphores
import Rp2350Stepper.Semantics.Buffers
import Rp2350Stepper.Semantics.Order
import Rp2350Stepper.Semantics.Implementation
import Rp2350Stepper.Semantics.Components
import Rp2350Stepper.Data.Crc
import Rp2350Stepper.Data.Fifo
import Rp2350Stepper.Data.SlotTable
import Rp2350Stepper.Data.Holdings
import Rp2350Stepper.Data.Framing
import Rp2350Stepper.Data.Scripts
import Rp2350Stepper.Data.Retries
import Rp2350Stepper.Num.SinglePrecision
import Rp2350Stepper.Num.ExactArithmetic
import Rp2350Stepper.Num.SpeedProfile
import Rp2350Stepper.Num.Rounding
import Rp2350Stepper.Pio.Machine
import Rp2350Stepper.Pio.Stepper
import Rp2350Stepper.Pio.DutyCycle
import Rp2350Stepper.Core1.Launch
import Rp2350Stepper.Core1.Startup
import Rp2350Stepper.Core1.Control
import Rp2350Stepper.Core1.Direction
import Rp2350Stepper.Core1.Parameters
import Rp2350Stepper.Core1.Accounting
import Rp2350Stepper.Core1.Moves
import Rp2350Stepper.Core1.MoveSpeeds
import Rp2350Stepper.Core1.SpeedLimits
import Rp2350Stepper.Core1.SpeedChanges
import Rp2350Stepper.Core1.BrakeSteps
import Rp2350Stepper.Core1.Branches
import Rp2350Stepper.Core1.Pulses
import Rp2350Stepper.Core1.Position
import Rp2350Stepper.Core1.Stops
import Rp2350Stepper.Core1.StepRates
import Rp2350Stepper.Core1.MoveCompletion
import Rp2350Stepper.Core1.Polling
import Rp2350Stepper.Core1.Requests
import Rp2350Stepper.Lan9250.Chip
import Rp2350Stepper.Lan9250.SpiWire
import Rp2350Stepper.Lan9250.Station
import Rp2350Stepper.Lan9250.PhyAccess
import Rp2350Stepper.Lan9250.BringUp
import Rp2350Stepper.Lan9250.BringUpState
import Rp2350Stepper.Lan9250.Environment
import Rp2350Stepper.Lan9250.Captures
import Rp2350Stepper.Lan9250.Reliable
import Rp2350Stepper.Lan9250.Ptp
import Rp2350Stepper.Lan9250.RxTimestamp
import Rp2350Stepper.Lan9250.TxTimestamp
import Rp2350Stepper.Lan9250.PtpParser
import Rp2350Stepper.Lan9250.Multicast
import Rp2350Stepper.Lan9250.Receive
import Rp2350Stepper.Lan9250.ReceiveRequests
import Rp2350Stepper.Lan9250.RxBooks
import Rp2350Stepper.Lan9250.RxFates
import Rp2350Stepper.Lan9250.RxLockstep
import Rp2350Stepper.Lan9250.RxFrames
import Rp2350Stepper.Lan9250.Rules
import Rp2350Stepper.Lan9250.RxMoves
import Rp2350Stepper.Lan9250.RxCheck
import Rp2350Stepper.Lan9250.RxRuns
import Rp2350Stepper.Lan9250.RxReferences
import Rp2350Stepper.Lan9250.RxMatching
import Rp2350Stepper.Lan9250.RxSenders
import Rp2350Stepper.Lan9250.TxMatching
import Rp2350Stepper.Lan9250.RxDirect
import Rp2350Stepper.Lan9250.RxExpiry
import Rp2350Stepper.Lan9250.RxLeaks
import Rp2350Stepper.Lan9250.HashFilter
import Rp2350Stepper.Lan9250.HashIndex
import Rp2350Stepper.Lan9250.MacRegisters
import Rp2350Stepper.Lan9250.PtpClock
import Rp2350Stepper.Lan9250.PtpAdjust
import Rp2350Stepper.Lan9250.PpsEnable
import Rp2350Stepper.Lan9250.RateAdjust
import Rp2350Stepper.Lan9250.MacThreads
import Rp2350Stepper.Lan9250.TxRecords
import Rp2350Stepper.Lan9250.Transmit
import Rp2350Stepper.Lan9250.TxStream
import Rp2350Stepper.Lan9250.TxBuffer
import Rp2350Stepper.Lan9250.TxFifo
import Rp2350Stepper.Lan9250.DriverLocks
import Rp2350Stepper.Lan9250.Banks
import Rp2350Stepper.Shell.RoundTrip
import Rp2350Stepper.Shell.Line
import Rp2350Stepper.Shell.Exchanges
import Rp2350Stepper.Shell.Completion
import Rp2350Stepper.Shell.Shells
import Rp2350Stepper.Shell.Axis
import Rp2350Stepper.Shell.Server
import Rp2350Stepper.Shell.Failures
import Rp2350Stepper.Shell.MoveSteps
import Rp2350Stepper.Lan9250.LinkThread
import Rp2350Stepper.Lan9250.ThreadFailures
import Rp2350Stepper.Lan9250.Carrier
import Rp2350Stepper.Lan9250.Interrupts
