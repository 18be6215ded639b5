import ZeOS.Kernel.System
import ZeOS.Kernel.Utils
import ZeOS.Invariants.Processes
import ZeOS.Invariants.Steps
import ZeOS.Invariants.Boot
import ZeOS.Scheduling
import ZeOS.Ownership
import ZeOS.EndedProcess
import ZeOS.Semaphores
import ZeOS.Invariants.Fat
import ZeOS.Files
import ZeOS.Invariants.References
import ZeOS.Invariants.Contents
import ZeOS.Invariants.Writes
import ZeOS.RoundTrip
import ZeOS.Invariants.Frames
import ZeOS.Invariants.Counters
import ZeOS.Invariants.UserPages
import ZeOS.UserPointers
import ZeOS.DiskSpace
import ZeOS.Monitor.Reader
import ZeOS.Monitor.Steps
import ZeOS.Monitor.Accounting
import ZeOS.Monitor.CallTable
import ZeOS.Monitor.Validity
import ZeOS.Monitor.Device
import ZeOS.FileStores
import ZeOS.Descriptors
import ZeOS.Invariants.Keyboard
import ZeOS.KeyboardRing
import ZeOS.Isolation
import ZeOS.ProcessMemory
import ZeOS.KeyboardStream
import ZeOS.KeyboardReads
import ZeOS.KeyboardDelivery
import ZeOS.Allocator
import ZeOS.Directory
import ZeOS.OpenCalls
import ZeOS.FileReads
import ZeOS.FileWrites
import ZeOS.FileBlocks
import ZeOS.ForkCopies
import ZeOS.ForkRollback
import ZeOS.RoundRobin
import ZeOS.Clock
import ZeOS.Statistics
import ZeOS.Console
import ZeOS.Invariants.Accounts
import ZeOS.CpuTime
import ZeOS.Starvation
import ZeOS.UtilityRoutines
import ZeOS.Library.RegisterStack
import ZeOS.Kernel.Entry
import ZeOS.EntryCode
import ZeOS.Registers
import ZeOS.Kernel.Segments
import ZeOS.KernelEntries
import ZeOS.Stops
import ZeOS.CriticalSections
import ZeOS.Kernel.Loader
import ZeOS.BootImage
import ZeOS.Kernel.Libc
import ZeOS.LibCalls
import ZeOS.Confidentiality

/-!
# ZeOS

The kernel of ZeOS as a state machine, and its invariants.
-/
