import PolymorphOS.Utf8
import PolymorphOS.RustStr
import PolymorphOS.Runs
import PolymorphOS.RegisterPrograms
import PolymorphOS.ObjectStore
import PolymorphOS.ByteMemory
import PolymorphOS.Bitmap
import PolymorphOS.RustCore
import PolymorphOS.RustText
import PolymorphOS.Returns
import PolymorphOS.RustI32
import PolymorphOS.MictGlobalAllocator
import PolymorphOS.HeapScan
import PolymorphOS.HeapRuns
import PolymorphOS.HeapObjects
import PolymorphOS.KernelHeap
import PolymorphOS.MdoVm
import PolymorphOS.MdoPolicy
import PolymorphOS.MdoReference
import PolymorphOS.MdoClauses
import PolymorphOS.Nvme
import PolymorphOS.Mfs
import PolymorphOS.MdoSafety
import PolymorphOS.MftCodec
import PolymorphOS.MfsCalls
import PolymorphOS.ExtentTable
import PolymorphOS.MfsRuns
import PolymorphOS.MfsTable
import PolymorphOS.MfsFailures
import PolymorphOS.MftRoundTrip
import PolymorphOS.MftCapacity
import PolymorphOS.MfsLookup
import PolymorphOS.MfsGate
import PolymorphOS.MdoExtension
import PolymorphOS.LbaArithmetic
import PolymorphOS.MdoHeader
import PolymorphOS.MfsContents
import PolymorphOS.FileStore
import PolymorphOS.StoredFiles
import PolymorphOS.MfsIsolation
import PolymorphOS.PlainFiles
import PolymorphOS.Terminal
import PolymorphOS.VirtioPci
import PolymorphOS.TextBuffer
import PolymorphOS.PayloadNames
import PolymorphOS.PayloadProbes
import PolymorphOS.GenesisTask
import PolymorphOS.Keystrokes
import PolymorphOS.Framing
import PolymorphOS.SerialMessages
import PolymorphOS.FrameAllocator
import PolymorphOS.UsableFrames
import PolymorphOS.DmaFrames
import PolymorphOS.ByteStream
import PolymorphOS.MictExecutor
import PolymorphOS.WakeUps
import PolymorphOS.BoundedWait
import PolymorphOS.ReadyQueue
import PolymorphOS.IdleLoop
import PolymorphOS.NvmeQueues
import PolymorphOS.NvmeReset
import PolymorphOS.NvmeBringUp
import PolymorphOS.NvmeAdmin
import PolymorphOS.NvmeNamespace
import PolymorphOS.NvmeBlocks
import PolymorphOS.NvmeInterface
import PolymorphOS.LinkedList
import PolymorphOS.VirtQueue
import PolymorphOS.VirtioGpu
import PolymorphOS.VirtioGpuRuns
import PolymorphOS.FlushOrder
import PolymorphOS.GpuRequests
import PolymorphOS.GpuWaits
import PolymorphOS.GpuReplies
import PolymorphOS.VirtioQueueSize
import PolymorphOS.VirtioHandshake
import PolymorphOS.HostScreen
import PolymorphOS.MonitorFrames
import PolymorphOS.E1000
import PolymorphOS.E1000Transmit
import PolymorphOS.E1000Receive
import PolymorphOS.OnesComplement
import PolymorphOS.Checksum
import PolymorphOS.GpuDriver
import PolymorphOS.Splat
import PolymorphOS.SplatCulling
import PolymorphOS.SemanticWindow
import PolymorphOS.SplatEngine
import PolymorphOS.DesktopRuns
import PolymorphOS.MousePackets
import PolymorphOS.MouseClicks
import PolymorphOS.WindowDrag
import PolymorphOS.PairedLists
import PolymorphOS.WindowPhysics
import PolymorphOS.WindowConvergence
import PolymorphOS.WindowNotes
import PolymorphOS.ClosedWindows
import PolymorphOS.RestoredWindows
import PolymorphOS.LineWrap
import PolymorphOS.VgaBuffer
import PolymorphOS.TextLayout
import PolymorphOS.SwapBuffers
import PolymorphOS.Picture
import PolymorphOS.Frames
