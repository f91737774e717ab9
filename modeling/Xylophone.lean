import Xylophone.Infra.Word
import Xylophone.Infra.Memory
import Xylophone.Infra.Run
import Xylophone.Infra.Tiling
import Xylophone.Infra.Allotment
import Xylophone.Infra.BinaryHeap
import Xylophone.Infra.LinkedQueue
import Xylophone.Data.OrderedArray
import Xylophone.Data.Bitmap
import Xylophone.Heap.Structures
import Xylophone.Heap.Manager
import Xylophone.Heap.Layout
import Xylophone.Heap.Place
import Xylophone.Heap.Allocate
import Xylophone.Heap.Free
import Xylophone.Heap.Isolation
import Xylophone.Heap.Index
import Xylophone.Paging.PhysicalMemory
import Xylophone.Paging.Manager
import Xylophone.Paging.Mapping
import Xylophone.Paging.Calls
import Xylophone.Paging.BootHeap
import Xylophone.Paging.Frames
import Xylophone.Paging.BootMapping
import Xylophone.Paging.Explicit
import Xylophone.Paging.Permissions
import Xylophone.Scheduler.Structures
import Xylophone.Scheduler.Scheduler
import Xylophone.Scheduler.Queues
import Xylophone.Scheduler.Machine
import Xylophone.Scheduler.Steps
import Xylophone.Scheduler.Lost
import Xylophone.Scheduler.DoublePush
import Xylophone.Scheduler.Idle
import Xylophone.Scheduler.Rotation
import Xylophone.Scheduler.Wake
import Xylophone.Scheduler.Zombies
import Xylophone.Scheduler.Interrupts
import Xylophone.Scheduler.Locks
import Xylophone.Infra.Ledger
import Xylophone.Tasks.AllocationTable
import Xylophone.Tasks.UserStacks
import Xylophone.Tasks.Task
import Xylophone.Tasks.Creation
import Xylophone.Tasks.Cleanup
import Xylophone.Tasks.Failures
import Xylophone.Tasks.Leaks
import Xylophone.Tasks.Blocks
import Xylophone.Boot.Multiboot2
import Xylophone.Boot.AvailableMemory
import Xylophone.Drivers.Ide
import Xylophone.Drivers.EndOfInterrupt
import Xylophone.Drivers.AtaPio
import Xylophone.Drivers.SectorAddress
import Xylophone.Drivers.WaitIrq
import Xylophone.Storage.Manager
import Xylophone.Tasks.StackRanges
import Xylophone.Infra.DepthFirst
import Xylophone.Drivers.Pci
import Xylophone.Drivers.PciScan
import Xylophone.Heap.WellFormed
import Xylophone.Heap.AlignedCut
import Xylophone.Heap.Expansion
import Xylophone.Infra.Loop
import Xylophone.Paging.Nesting
import Xylophone.Heap.Bounds
import Xylophone.Paging.BlockPool
import Xylophone.Paging.FailedMapping
import Xylophone.Paging.RangeLoops
import Xylophone.Paging.ChosenFrames
import Xylophone.Paging.HeapPages
import Xylophone.Paging.HeapGrowth
import Xylophone.Paging.HeapLimit
import Xylophone.Paging.HeapPresent
import Xylophone.Heap.Refusal
import Xylophone.Heap.KernelMemory
import Xylophone.Infra.QueueFamily
import Xylophone.Data.ArrayCells
import Xylophone.Heap.BestFit
import Xylophone.Heap.Placement
import Xylophone.Scheduler.SleepHeap
import Xylophone.Scheduler.QueueLists
import Xylophone.Tasks.TableRuns
import Xylophone.Tasks.Slots
import Xylophone.Boot.TagReads
import Xylophone.Scheduler.Selection
import Xylophone.Heap.Realloc
import Xylophone.Heap.Merge
import Xylophone.Boot.MemorySize
import Xylophone.Infra.CString
import Xylophone.Strings.Basic
import Xylophone.Tasks.KernelThreads
import Xylophone.Infra.Numeral
import Xylophone.Strings.Conversions
import Xylophone.Strings.Trim
import Xylophone.Data.FastMemory
import Xylophone.Drivers.PciAccess
import Xylophone.Drivers.Vesa
import Xylophone.Syscalls.Dispatch
import Xylophone.Debug.Dbgprintf
import Xylophone.Infra.Tokens
import Xylophone.Strings.Strtok
import Xylophone.Infra.SegmentDescriptor
import Xylophone.Descriptors.GlobalDescriptorTable
import Xylophone.Descriptors.TaskStateSegment
import Xylophone.Infra.InterruptGate
import Xylophone.Descriptors.InterruptDescriptorTable
import Xylophone.Interrupts.Delivery
import Xylophone.Interrupts.Nested
import Xylophone.Syscalls.RoundTrip
import Xylophone.Scheduler.Waiting
import Xylophone.Scheduler.Context
import Xylophone.Infra.InterruptController
import Xylophone.Drivers.Pic8259
import Xylophone.Scheduler.AddressSpace
import Xylophone.Infra.SerialPort
import Xylophone.Debug.SerialCom1
import Xylophone.Tasks.Start
import Xylophone.Tasks.Started
import Xylophone.Drivers.Identify
