import UniKernel.Lib.Transition
import UniKernel.Lib.Words
import UniKernel.Pmm.Model
import UniKernel.Pmm.Invariant
import UniKernel.Pmm.Runs
import UniKernel.CString.Model
import UniKernel.Heap.Model
import UniKernel.Vmm.Frames
import UniKernel.Heap.Statics
import UniKernel.Boot.Model
import UniKernel.Boot.Overlap
import UniKernel.Boot.Translation
import UniKernel.Net.Model
import UniKernel.Net.Accesses
import UniKernel.Lib.Ring
import UniKernel.Net.Receive
import UniKernel.Net.Transmit
import UniKernel.Net.Rings
import UniKernel.Net.TxRings
import UniKernel.Lib.LinkedList
import UniKernel.Pthread.Machine
import UniKernel.Pthread.Queues
import UniKernel.Pthread.Invariant
import UniKernel.Pthread.Switch
import UniKernel.Pthread.Steps
import UniKernel.Pthread.Create
import UniKernel.Pthread.Runs
import UniKernel.Pthread.Perform
import UniKernel.Pthread.Threads
import UniKernel.Pthread.Runqueues
import UniKernel.Pthread.Lock
import UniKernel.Pthread.Waiters
import UniKernel.Pthread.WakeUp
import UniKernel.Pthread.WaitLists
import UniKernel.Pthread.Reclaim
import UniKernel.Pthread.JoinValue
import UniKernel.Lib.AddressSpace
import UniKernel.Pmm.Popped
import UniKernel.Vmm.Walk
import UniKernel.Vmm.Tables
import UniKernel.Vmm.Regions
import UniKernel.Vmm.BootMap
import UniKernel.Net.Irq
import UniKernel.Net.QueueMemory
import UniKernel.Net.Published
import UniKernel.Net.FrameBatch
import UniKernel.Net.SendSteps
import UniKernel.Net.Preempt
import UniKernel.Lib.InternetChecksum
import UniKernel.Net.Checksum
import UniKernel.Net.Reply
import UniKernel.Net.Echo
import UniKernel.Net.Lengths
import UniKernel.Net.Init
import UniKernel.Net.RxFill
import UniKernel.Net.EntryPoints
import UniKernel.Lib.Rotation
import UniKernel.Pthread.RoundRobin
import UniKernel.Context.Model
import UniKernel.Context.Switch
import UniKernel.Context.Runs
import UniKernel.Net.PrintLock
import UniKernel.Net.RingUses
import UniKernel.Heap.Region
import UniKernel.Lib.FirstFit
import UniKernel.Heap.Layout
import UniKernel.Heap.Occupied
import UniKernel.Heap.Steps
import UniKernel.Heap.Operations
import UniKernel.Heap.Represents
import UniKernel.Heap.FreeRuns
import UniKernel.Heap.Pages
import UniKernel.Heap.SlabLists
import UniKernel.Heap.Slabs
import UniKernel.Heap.Caches
import UniKernel.Heap.EntryPoints
import UniKernel.Heap.Init
import UniKernel.Heap.Blocks
import UniKernel.Heap.Runs
import UniKernel.Heap.Reclaimed
import UniKernel.Pmm.Requests
import UniKernel.Pmm.References
import UniKernel.Heap.Allocated
import UniKernel.Heap.Reallocated
import UniKernel.Heap.LargeBlocks
import UniKernel.Heap.Calloc
import UniKernel.Heap.BadFrees
import UniKernel.Heap.FirstInit
import UniKernel.Pthread.Attributes
import UniKernel.Pthread.Balance
import UniKernel.Pthread.CallerStacks
import UniKernel.Pthread.Runnable
import UniKernel.Pmm.MarkUsed
import UniKernel.Vmm.Pages
import UniKernel.Lib.Loop
import UniKernel.Lib.Numerals
import UniKernel.Lib.Strings
import UniKernel.Stdio.Model
import UniKernel.Stdio.Decimal
import UniKernel.Stdio.Hex
import UniKernel.Stdio.Formats
import UniKernel.Stdio.Printf
import UniKernel.Stdio.Output
import UniKernel.Stdio.Input
import UniKernel.Stdio.Scanf
import UniKernel.CString.Move
import UniKernel.CString.Strtok
import UniKernel.CString.Tokens
import UniKernel.Lib.Tracked
import UniKernel.CString.Bounded
import UniKernel.CString.Append
import UniKernel.Lib.Rescale
import UniKernel.Pl031.Clock
import UniKernel.Heap.SlabPages
import UniKernel.Lib.Exceptions
import UniKernel.Exception.Model
import UniKernel.Exception.Frame
import UniKernel.Exception.Runs
import UniKernel.Exception.Switch
import UniKernel.Net.Delivery
import UniKernel.Lib.Refinement
import UniKernel.Lib.Lock
import UniKernel.Pthread.SpinLock
import UniKernel.Stdio.Console
import UniKernel.Lib.PriorityQueue
import UniKernel.Pthread.FifoOrder
import UniKernel.Net.Reflection
import UniKernel.Lib.Lexicographic
import UniKernel.CString.Compare
import UniKernel.CString.Search
import UniKernel.CString.Copy
import UniKernel.Heap.Shared
import UniKernel.Heap.SharedCalls
import UniKernel.Heap.SharedRuns
import UniKernel.Kernel.Model
import UniKernel.Kernel.Tracks
import UniKernel.Kernel.Refinement
import UniKernel.Boot.Start
import UniKernel.Boot.StartRuns
import UniKernel.Boot.Secondary
