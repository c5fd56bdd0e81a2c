import Goatos.Library.ByteMemory
import Goatos.Library.Loop
import Goatos.Library.IntrusiveList
import Goatos.Library.Transition
import Goatos.Library.Ring
import Goatos.Library.Cycle
import Goatos.Library.Machine
import Goatos.Library.Grid
import Goatos.Library.Rows
import Goatos.Library.Nesting
import Goatos.Library.PortHistory
import Goatos.Library.PortProgram
import Goatos.Library.Word
import Goatos.Library.Tiling
import Goatos.Library.MaximalRuns
import Goatos.Library.PageWalk
import Goatos.Library.LittleEndian
import Goatos.Library.Slice
import Goatos.Memory.Map
import Goatos.Memory.Frame
import Goatos.Memory.FramePool
import Goatos.Memory.FrameRegions
import Goatos.Memory.FrameOwnership
import Goatos.Memory.ContiguousSearch
import Goatos.Memory.OverlappingMap
import Goatos.Memory.FrameStack
import Goatos.Memory.FrameAvailability
import Goatos.Memory.FrameClassification
import Goatos.Memory.FrameConservation
import Goatos.Memory.Heap
import Goatos.Memory.HeapLayout
import Goatos.Memory.HeapShape
import Goatos.Memory.HeapOperations
import Goatos.Memory.HeapRuns
import Goatos.Memory.HeapGuarantees
import Goatos.Memory.HeapFirstFit
import Goatos.Memory.HeapFrees
import Goatos.Memory.HeapInit
import Goatos.Memory.Paging
import Goatos.Memory.IdentityWindow
import Goatos.Memory.PageTables
import Goatos.Memory.PagingInit
import Goatos.Boot.DetectMemory
import Goatos.Boot.Handoff
import Goatos.Input.Queue
import Goatos.Input.Keyboard
import Goatos.Input.HeldKeys
import Goatos.Console.Vga
import Goatos.Console.Transcript
import Goatos.Console.Shell
import Goatos.Console.LineEcho
import Goatos.Console.Serial
import Goatos.Task.Scheduler
import Goatos.Task.Switch
import Goatos.Task.Transparency
import Goatos.Task.Interrupts
import Goatos.Task.EntryStack
import Goatos.Sync.IrqMutex
import Goatos.Interrupt.Pic
import Goatos.Interrupt.Handlers
import Goatos.Interrupt.Acknowledge
import Goatos.Storage.Ata
import Goatos.Storage.Fs
import Goatos.Boot.LoadKernel
import Goatos.Storage.Pack
import Goatos.Storage.Pio
import Goatos.Storage.DiskDrive
import Goatos.Storage.AtaErrors
import Goatos.Storage.ReadFile
import Goatos.Storage.FsRoundTrip
import Goatos.Storage.MountPacked
import Goatos.Storage.MalformedDisk
import Goatos.Library.AddressSpace
import Goatos.Library.Delivery
import Goatos.Tables.DoubleFault
import Goatos.Tables.Events
import Goatos.Tables.InterruptReturn
import Goatos.Interrupt.PicInit
