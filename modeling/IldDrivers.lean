import IldDrivers.Lib.Transition
import IldDrivers.Lib.Memory
import IldDrivers.Lib.Decimal
import IldDrivers.Lib.Scan
import IldDrivers.Lib.Truncation
import IldDrivers.Lib.Fifo
import IldDrivers.Lib.History
import IldDrivers.Lib.WaitQueue
import IldDrivers.Lib.Mutex
import IldDrivers.Lib.Pieces
import IldDrivers.Lib.Ledger
import IldDrivers.Lib.Bytes
import IldDrivers.Lib.Checksum
import IldDrivers.Lib.Shares
import IldDrivers.Lib.Extrema
import IldDrivers.Kernel
import IldDrivers.Messages.Queue
import IldDrivers.Messages.Rows
import IldDrivers.Messages.Blocking
import IldDrivers.Messages.Locking
import IldDrivers.Messages.Refinement
import IldDrivers.Messages.Contents
import IldDrivers.Messages.Integrity
import IldDrivers.Messages.Delivery
import IldDrivers.Messages.Chunks
import IldDrivers.EventLog.Table
import IldDrivers.EventLog.Drain
import IldDrivers.EventLog.Readers
import IldDrivers.EventLog.Interleaving
import IldDrivers.Usb.Driver
import IldDrivers.Usb.Statements
import IldDrivers.Usb.Locking
import IldDrivers.Usb.Files
import IldDrivers.Usb.Plug
import IldDrivers.Usb.Protocol
import IldDrivers.Usb.Rest
import IldDrivers.Usb.Report
import IldDrivers.Usb.RoundTrip
import IldDrivers.Usb.Unplug
import IldDrivers.Usb.OpenCount
import IldDrivers.Usb.Transfers
import IldDrivers.Usb.Parsing
import IldDrivers.Usb.Window
import IldDrivers.Usb.Board
import IldDrivers.Usb.Replies
import IldDrivers.Usb.Selection
import IldDrivers.Proc.Offsets
import IldDrivers.Proc.Sums
import IldDrivers.Counters.Driver
import IldDrivers.Counters.Projection
import IldDrivers.Counters.Versions
import IldDrivers.Counters.Reading
import IldDrivers.Net.Driver
import IldDrivers.Net.Lanes
import IldDrivers.Net.Delivery
import IldDrivers.Net.Rewriting
import IldDrivers.Net.Uncounted
import IldDrivers.Net.Crossing
import IldDrivers.Net.Header
import IldDrivers.Net.Ownership
import IldDrivers.Net.Extent
import IldDrivers.Net.Protocols
import IldDrivers.Interrupts.Halves
import IldDrivers.Interrupts.Timestamps
import IldDrivers.Interrupts.Programs
import IldDrivers.Interrupts.Failures
import IldDrivers.Interrupts.Text
import IldDrivers.Interrupts.Sessions
import IldDrivers.Interrupts.Resources
import IldDrivers.Interrupts.Isolation
import IldDrivers.Fpga.Window
import IldDrivers.Fpga.Probe
import IldDrivers.Fpga.Unwinding
import IldDrivers.Fpga.Files
import IldDrivers.Fpga.Transfers
import IldDrivers.Fpga.Opening
import IldDrivers.Fpga.Loops
import IldDrivers.Fpga.Coherence
import IldDrivers.Fpga.Mapping
import IldDrivers.Ioctl.Flags
import IldDrivers.Fpga.Handler
import IldDrivers.Fpga.Edges
import IldDrivers.Fpga.Leds
import IldDrivers.Gpio.Levels
import IldDrivers.Timers.Jitter
import IldDrivers.Timers.Teardown
import IldDrivers.Locks.Collisions
import IldDrivers.Interrupts.Select
import IldDrivers.Interrupts.SelectWaking
import IldDrivers.Interrupts.SelectReading
import IldDrivers.Interrupts.SelectResponse
import IldDrivers.Lib.Monitor
import IldDrivers.Lib.MonitorSections
import IldDrivers.Lib.MonitorWaiting
import IldDrivers.Messages.Versions
import IldDrivers.Messages.Settling
import IldDrivers.Messages.Order
import IldDrivers.Lib.Lifecycle
import IldDrivers.Modules.Interrupts
import IldDrivers.Modules.Registrations
import IldDrivers.Net.Addressing
import IldDrivers.Proc.Readings
import IldDrivers.Proc.Values
import IldDrivers.Locks.Exclusive
import IldDrivers.Counters.Commands
import IldDrivers.Interrupts.NonBlock
