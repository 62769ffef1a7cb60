import Kemu.Arch.Bzimage
import Kemu.Arch.InitrdPlace
import Kemu.Arch.Mptable
import Kemu.Arch.MptableParse
import Kemu.Arch.Plic
import Kemu.Arch.PlicClaims
import Kemu.Arch.PlicInvariant
import Kemu.Arch.PlicRuns
import Kemu.Arch.PlicSources
import Kemu.Arch.PlicTrig
import Kemu.Arch.Xics
import Kemu.Arch.XicsRuns
import Kemu.Arch.XicsSignals
import Kemu.Disk.Image
import Kemu.Disk.Qcow.Allocation
import Kemu.Disk.Qcow.Blocks
import Kemu.Disk.Qcow.BufferSplit
import Kemu.Disk.Qcow.Coherence
import Kemu.Disk.Qcow.Compressed
import Kemu.Disk.Qcow.Exactness
import Kemu.Disk.Qcow.Frame
import Kemu.Disk.Qcow.L2Cache
import Kemu.Disk.Qcow.Open
import Kemu.Disk.Qcow.Read
import Kemu.Disk.Qcow.ReadErrors
import Kemu.Disk.Qcow.Refcount
import Kemu.Disk.Qcow.Refinement
import Kemu.Disk.Qcow.Reopen
import Kemu.Disk.Qcow.Runs
import Kemu.Disk.Qcow.Write
import Kemu.Disk.Serial
import Kemu.Hw.CfiFlash
import Kemu.Hw.CfiFlashBlocks
import Kemu.Hw.CfiFlashBounds
import Kemu.Hw.I8042
import Kemu.Hw.I8042Queues
import Kemu.Hw.Serial
import Kemu.Hw.SerialBuffers
import Kemu.Hw.SerialLines
import Kemu.Hw.SerialReceive
import Kemu.Init.CoalescedMmio
import Kemu.Init.CpuTasks
import Kemu.Init.FlatTranslation
import Kemu.Init.IpcFraming
import Kemu.Init.Irq
import Kemu.Init.MemBanks
import Kemu.Init.MemRuns
import Kemu.Init.Mmio
import Kemu.Init.Monitor
import Kemu.Init.Pause
import Kemu.Init.Pci
import Kemu.Init.PciFrame
import Kemu.Init.PciMechanism
import Kemu.Init.RamSize
import Kemu.Init.Traps
import Kemu.Lib.Align
import Kemu.Lib.Bitmap
import Kemu.Lib.Bytes
import Kemu.Lib.ClosedInterval
import Kemu.Lib.Contract
import Kemu.Lib.Flags
import Kemu.Lib.LinkedList
import Kemu.Lib.LruCache
import Kemu.Lib.MaskedWord
import Kemu.Lib.OnesComplement
import Kemu.Lib.PagedLedger
import Kemu.Lib.Paging
import Kemu.Lib.RingWindow
import Kemu.Lib.SearchTree
import Kemu.Lib.Selection
import Kemu.Lib.TaggedRecords
import Kemu.Lib.Tally
import Kemu.Lib.Tlv
import Kemu.Lib.Transition
import Kemu.Lib.Walk
import Kemu.Lib.WrapIndex
import Kemu.Net.BufferBounds
import Kemu.Net.BufferOrder
import Kemu.Net.BufferPool
import Kemu.Net.Checksums
import Kemu.Net.Dhcp
import Kemu.Net.DhcpOptions
import Kemu.Net.FrameReads
import Kemu.Net.IcmpReply
import Kemu.Net.Packet
import Kemu.Net.Tcp
import Kemu.Net.TcpDemux
import Kemu.Net.TcpReceive
import Kemu.Net.TcpSend
import Kemu.Net.TcpTeardown
import Kemu.Net.TxLayout
import Kemu.Util.IoVector
import Kemu.Util.IovecCopy
import Kemu.Util.IovecCursor
import Kemu.Util.Rbtree
import Kemu.Util.RbtreeInterval
import Kemu.Util.RbtreePostorder
import Kemu.Util.ReadWrite
import Kemu.Util.ThreadPool
import Kemu.Util.VectorTransfer
import Kemu.Vfio.Caps
import Kemu.Vfio.Msi
import Kemu.Vfio.Msix
import Kemu.Vfio.MsixCoherence
import Kemu.Vfio.MsixLayout
import Kemu.Vfio.MsixTraps
import Kemu.Vfio.MsixUpdates
import Kemu.Virtio.Blk
import Kemu.Virtio.BlkLayout
import Kemu.Virtio.BlkMapped
import Kemu.Virtio.ChainBuffers
import Kemu.Virtio.Core
import Kemu.Virtio.DescChain
import Kemu.Virtio.Interrupt
import Kemu.Virtio.Kick
import Kemu.Virtio.Msix
import Kemu.Virtio.MsixBound
import Kemu.Virtio.MsixFields
import Kemu.Virtio.MsixPending
import Kemu.Virtio.MsixRoutes
import Kemu.Virtio.Negotiation
import Kemu.Virtio.NetCtrl
import Kemu.Virtio.NetRx
import Kemu.Virtio.P9.Atomicity
import Kemu.Virtio.P9.Confinement
import Kemu.Virtio.P9.Fid
import Kemu.Virtio.P9.Path
import Kemu.Virtio.P9.PathBuffers
import Kemu.Virtio.P9.Pdu
import Kemu.Virtio.P9.Placement
import Kemu.Virtio.P9.ReadWrite
import Kemu.Virtio.P9.Readdir
import Kemu.Virtio.P9.ReaddirPages
import Kemu.Virtio.P9.ReaddirQids
import Kemu.Virtio.P9.Rename
import Kemu.Virtio.P9.Server
import Kemu.Virtio.P9.Stop
import Kemu.Virtio.P9.TableRules
import Kemu.Virtio.P9.Walk
import Kemu.Virtio.P9.WalkReply
import Kemu.Virtio.PciBar
import Kemu.Virtio.PciEmulation
import Kemu.Virtio.PciInvariant
import Kemu.Virtio.PciSizing
import Kemu.Virtio.PciWired
import Kemu.Virtio.QueueIndex
import Kemu.Virtio.Ring
import Kemu.Virtio.Transport
import Kemu.Virtio.VectorWrites
