import SocPeripherals.Agenda
import SocPeripherals.Bench
import SocPeripherals.Block.Basic
import SocPeripherals.Block.Command
import SocPeripherals.Block.Host
import SocPeripherals.Block.Schedule
import SocPeripherals.Block.Snapshot
import SocPeripherals.Block.Window
import SocPeripherals.Bus.Basic
import SocPeripherals.Bus.Exclusive
import SocPeripherals.Bus.HostMemory
import SocPeripherals.Bus.Ram
import SocPeripherals.Bus.Recorder
import SocPeripherals.Clock
import SocPeripherals.Desk
import SocPeripherals.Device
import SocPeripherals.DeviceError
import SocPeripherals.Dma.Channel
import SocPeripherals.Dma.Engine
import SocPeripherals.Dma.Transfer
import SocPeripherals.Event
import SocPeripherals.Fault
import SocPeripherals.Interrupt.Command
import SocPeripherals.Interrupt.Controller
import SocPeripherals.Interrupt.Line
import SocPeripherals.Journal
import SocPeripherals.Note
import SocPeripherals.Parts
import SocPeripherals.Proofs.Block.Act
import SocPeripherals.Proofs.Block.Hop
import SocPeripherals.Proofs.Block.Invariant
import SocPeripherals.Proofs.Block.Poll
import SocPeripherals.Proofs.Block.Reached
import SocPeripherals.Proofs.Block.Restored
import SocPeripherals.Proofs.Block.RoundTrip
import SocPeripherals.Proofs.Block.Timely
import SocPeripherals.Proofs.Clock.Agenda
import SocPeripherals.Proofs.Clock.Live
import SocPeripherals.Proofs.Clock.Service
import SocPeripherals.Proofs.Clock.Time
import SocPeripherals.Proofs.Dma.Atomic
import SocPeripherals.Proofs.Dma.Channel
import SocPeripherals.Proofs.Dma.Completion
import SocPeripherals.Proofs.Dma.Pieces
import SocPeripherals.Proofs.Interrupt
import SocPeripherals.Proofs.Interrupt.Levels
import SocPeripherals.Proofs.Late.Advance
import SocPeripherals.Proofs.Late.CatchUp
import SocPeripherals.Proofs.Late.Completion
import SocPeripherals.Proofs.Late.Dma
import SocPeripherals.Proofs.Late.Heard
import SocPeripherals.Proofs.Late.Passed
import SocPeripherals.Proofs.Late.Poll
import SocPeripherals.Proofs.Late.Punctual
import SocPeripherals.Proofs.Late.Request
import SocPeripherals.Proofs.Late.Timer
import SocPeripherals.Proofs.Late.Touch
import SocPeripherals.Proofs.Late.Twice
import SocPeripherals.Proofs.Late.Uart
import SocPeripherals.Proofs.Lockstep.Block
import SocPeripherals.Proofs.Lockstep.Clock
import SocPeripherals.Proofs.Lockstep.Dma
import SocPeripherals.Proofs.Lockstep.Session
import SocPeripherals.Proofs.Lockstep.Timer
import SocPeripherals.Proofs.Lockstep.Twins
import SocPeripherals.Proofs.Lockstep.Uart
import SocPeripherals.Proofs.Register
import SocPeripherals.Proofs.Run
import SocPeripherals.Proofs.Stepping
import SocPeripherals.Proofs.Timer
import SocPeripherals.Proofs.Uart
import SocPeripherals.Register.Access
import SocPeripherals.Register.Bank
import SocPeripherals.Register.Basic
import SocPeripherals.Register.Checked
import SocPeripherals.Run
import SocPeripherals.Storage
import SocPeripherals.Text.Hex
import SocPeripherals.Timer
import SocPeripherals.Uart
import SocPeripherals.Width
import SocPeripherals.Proofs.Lockstep.Chronicle
import SocPeripherals.Proofs.Block.Kept
import SocPeripherals.Proofs.Block.PowerOn
import SocPeripherals.Proofs.Block.Alone
import SocPeripherals.Proofs.Lockstep.Forget
import SocPeripherals.Proofs.Faults.Devices
import SocPeripherals.Proofs.Faults.Block
import SocPeripherals.Proofs.Dma.Turns
import SocPeripherals.Proofs.Dma.Lifecycle
import SocPeripherals.Proofs.Bus.Ram
import SocPeripherals.Proofs.Bus.Lanes
import SocPeripherals.Proofs.Dma.Plan
import SocPeripherals.Proofs.Dma.Copy
import SocPeripherals.Proofs.Dma.Engine
import SocPeripherals.Proofs.Dma.Progress
import SocPeripherals.Proofs.Isolation.Devices
import SocPeripherals.Proofs.Isolation.Owners
import SocPeripherals.Proofs.Isolation.Block
import SocPeripherals.Proofs.Restore.Devices
import SocPeripherals.Proofs.Restore.Block
import SocPeripherals.Proofs.Consistency.Devices
import SocPeripherals.Proofs.Consistency.Block
import SocPeripherals.Proofs.Uart.Access
import SocPeripherals.Proofs.Uart.Queue
import SocPeripherals.Proofs.Uart.Orders
import SocPeripherals.Proofs.Uart.Breaks
import SocPeripherals.Proofs.Timer.Lifecycle
import SocPeripherals.Proofs.Timer.Course
import SocPeripherals.Proofs.Timer.Rewrites
import SocPeripherals.Proofs.Interrupt.Service
import SocPeripherals.Proofs.Bench
import SocPeripherals.Proofs.Dma.Protection
import SocPeripherals.Proofs.Dma.Reached
import SocPeripherals.Proofs.Dma.Programming
import SocPeripherals.Proofs.Dma.Errands
import SocPeripherals.Proofs.Dma.ErrandHistory
import SocPeripherals.Proofs.Dma.Polled
import SocPeripherals.Proofs.Interrupt.Ledger
import SocPeripherals.Proofs.Restore.Refusal
import SocPeripherals.Proofs.Restore.Handover
import SocPeripherals.Proofs.Restore.Boundary
import SocPeripherals.Proofs.Timer.Lost
import SocPeripherals.Proofs.Late.Arrival
import SocPeripherals.Proofs.Bus.Memory
import SocPeripherals.Proofs.Register.Strays
import SocPeripherals.Proofs.Register.Bytes
import SocPeripherals.Proofs.Late.Idempotent
import SocPeripherals.Proofs.Clock.Handles
import SocPeripherals.Proofs.Timer.Rearm
import SocPeripherals.Proofs.Lockstep.Renumbered
import SocPeripherals.Proofs.Isolation.Commute
