import Uinxed.Lib.ThreadedList
import Uinxed.Lib.AlignedBlock
import Uinxed.Lib.OffsetSum
import Uinxed.Lib.ForwardPass
import Uinxed.Mem.Buddy.Basic
import Uinxed.Mem.Buddy.Lists
import Uinxed.Mem.Buddy.Invariant
import Uinxed.Mem.Buddy.Add
import Uinxed.Mem.Buddy.Alloc
import Uinxed.Mem.Buddy.Free
import Uinxed.Mem.Buddy.Ops
import Uinxed.Mem.Buddy.Validate
import Uinxed.Mem.Buddy.System
import Uinxed.Mem.Buddy.RoundTrip
import Uinxed.Mem.Frame.Basic
import Uinxed.Mem.Frame.Pages
import Uinxed.Mem.Frame.Invariant
import Uinxed.Mem.Frame.Alloc
import Uinxed.Mem.Frame.Refs
import Uinxed.Mem.Frame.Init
import Uinxed.Mem.Frame.InitSpec
import Uinxed.Mem.Frame.System
import Uinxed.Mem.Heap.Api
import Uinxed.Mem.Heap.Pages
import Uinxed.Mem.Heap.Large
import Uinxed.Ipc.RtMutex
import Uinxed.Ipc.RtMutexSpec
import Uinxed.Ipc.RtMutexLinks
import Uinxed.Sched.Eevdf
import Uinxed.Sched.Accounting
import Uinxed.Lib.SignedArith
import Uinxed.Sched.Average
import Uinxed.Lib.AugTree
import Uinxed.Sched.PickEevdf
import Uinxed.Signal.Queue
import Uinxed.Mem.PageCache.ReclaimRace
import Uinxed.Mem.Uaccess
import Uinxed.Mem.Swap
import Uinxed.Mem.Page
import Uinxed.Security.SeccompBpf
import Uinxed.Security.SeccompBpfSafety
import Uinxed.Lib.RcChain
import Uinxed.Sched.WaitQueue
import Uinxed.Ipc.Futex
import Uinxed.Ipc.FutexTable
import Uinxed.Ipc.FutexFree
import Uinxed.Ipc.FutexWake
import Uinxed.Security.SeccompFilter
import Uinxed.Security.SeccompInv
import Uinxed.Security.SeccompRun
import Uinxed.Net.Tcp.Endpoint
import Uinxed.Net.Tcp.Input
import Uinxed.Net.Tcp.Receive
import Uinxed.Net.Tcp.Send
import Uinxed.Lib.RingWindow
import Uinxed.Ipc.PipeRing
import Uinxed.Ipc.PipeIo
import Uinxed.Ipc.PipeStream
import Uinxed.Ipc.PipeWake
import Uinxed.Lib.TraceExcept
import Uinxed.Block.Partition
import Uinxed.Block.PartitionTable
import Uinxed.Block.PartitionScan
import Uinxed.Block.PartitionSound
import Uinxed.Lib.Runs
import Uinxed.Process.Vma
import Uinxed.Process.ElfLoader
import Uinxed.Process.ElfRead
import Uinxed.Process.ElfPages
import Uinxed.Process.ElfLoad
import Uinxed.Process.Mmap
import Uinxed.Process.MmapShape
import Uinxed.Process.MmapFree
import Uinxed.Ipc.Shm
import Uinxed.Ipc.Sem
import Uinxed.Ipc.SemSys
import Uinxed.Ipc.SemCount
import Uinxed.Lib.Digraph
import Uinxed.Ipc.Epoll
import Uinxed.Ipc.EpollGraph
import Uinxed.Lib.LinkRing
import Uinxed.Libs.IntrusiveList
import Uinxed.Lib.ByteFile
import Uinxed.Mem.PageCache.Mapping
import Uinxed.Mem.PageCache.Invariant
import Uinxed.Mem.PageCache.Refinement
import Uinxed.Ipc.FutexWakeOp
import Uinxed.Lib.Utf8
import Uinxed.Libs.Utf
import Uinxed.Lib.PathStack
import Uinxed.Fs.ResolvePath
import Uinxed.Libs.NormalizePath
import Uinxed.Lib.OnesComplement
import Uinxed.Net.Checksum
import Uinxed.Security.SeccompExact
import Uinxed.Block.PartitionText
import Uinxed.Ipc.Msg
import Uinxed.Ipc.PosixMq
import Uinxed.Signal.Frame
import Uinxed.Process.ElfInfo
import Uinxed.Fs.Cpio
import Uinxed.Usb.HidDecode
import Uinxed.Ipc.EpollWait
import Uinxed.Lib.AlignedPack
import Uinxed.Module.Elf
import Uinxed.Module.Layout
import Uinxed.Module.Relocate
import Uinxed.Lib.BlockMove
import Uinxed.Libs.MemString
