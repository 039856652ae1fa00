import UsrLinuxEmu.Transition.Erasure
import UsrLinuxEmu.Transition.Local
import UsrLinuxEmu.Transition.Locking
import UsrLinuxEmu.Transition.Progress
import UsrLinuxEmu.Transition.Run
import UsrLinuxEmu.Transition.History
import UsrLinuxEmu.Transition.Simulation
import UsrLinuxEmu.Transition.Bypass
import UsrLinuxEmu.Ring.CyclicScan
import UsrLinuxEmu.Ring.WrapRing
import UsrLinuxEmu.GpuDriver.BarMappings
import UsrLinuxEmu.GpuDriver.BarrierRelease
import UsrLinuxEmu.GpuDriver.BoMmap
import UsrLinuxEmu.GpuDriver.BoostNeutral
import UsrLinuxEmu.GpuDriver.DeviceMmap
import UsrLinuxEmu.GpuDriver.DmaCoherentPool
import UsrLinuxEmu.GpuDriver.FenceErasure
import UsrLinuxEmu.GpuDriver.GraphExec
import UsrLinuxEmu.GpuDriver.HalEventWakeups
import UsrLinuxEmu.GpuDriver.HalIommu
import UsrLinuxEmu.GpuDriver.HalQueueLifetimes
import UsrLinuxEmu.GpuDriver.HalUser
import UsrLinuxEmu.GpuDriver.HeapConfinement
import UsrLinuxEmu.GpuDriver.HqdWindow
import UsrLinuxEmu.GpuDriver.IbJump
import UsrLinuxEmu.GpuDriver.Interrupts
import UsrLinuxEmu.GpuDriver.KfdProcess
import UsrLinuxEmu.GpuDriver.KfdProcessMemory
import UsrLinuxEmu.GpuDriver.KfdQueue
import UsrLinuxEmu.GpuDriver.MemcpyDispatch
import UsrLinuxEmu.GpuDriver.MigrationMemory
import UsrLinuxEmu.GpuDriver.PageStates
import UsrLinuxEmu.GpuDriver.PdlNesting
import UsrLinuxEmu.GpuDriver.Pm4Reference
import UsrLinuxEmu.GpuDriver.PullerWakeups
import UsrLinuxEmu.GpuDriver.SchedulerFifo
import UsrLinuxEmu.GpuDriver.SemaphoreObservation
import UsrLinuxEmu.GpuDriver.SemaphoreState
import UsrLinuxEmu.GpuDriver.ChannelManager
import UsrLinuxEmu.GpuDriver.GlobalScheduler
import UsrLinuxEmu.GpuDriver.GpuQueue
import UsrLinuxEmu.GpuDriver.Puller
import UsrLinuxEmu.GpuDriver.PullerSystem
import UsrLinuxEmu.GpuDriver.PullerStep
import UsrLinuxEmu.GpuDriver.EnvStep
import UsrLinuxEmu.GpuDriver.PullerGuards
import UsrLinuxEmu.GpuDriver.FenceSoundness
import UsrLinuxEmu.GpuDriver.EntryBytes
import UsrLinuxEmu.GpuDriver.EntryDelivery
import UsrLinuxEmu.GpuDriver.EntryFlow
import UsrLinuxEmu.GpuDriver.ReleaseEntries
import UsrLinuxEmu.GpuDriver.KernelModule
import UsrLinuxEmu.GpuDriver.KfdLifetime
import UsrLinuxEmu.GpuDriver.KfdSimBridge
import UsrLinuxEmu.GpuDriver.KfdVma
import UsrLinuxEmu.GpuDriver.LaunchExactness
import UsrLinuxEmu.GpuDriver.GreenPreemption
import UsrLinuxEmu.GpuDriver.ChannelIdentity
import UsrLinuxEmu.GpuDriver.RingDelivery
import UsrLinuxEmu.GpuDriver.BatchDelivery
import UsrLinuxEmu.GpuDriver.PushbufferSubmit
import UsrLinuxEmu.GpuDriver.BlockedEntries
import UsrLinuxEmu.GpuDriver.RequestFree
import UsrLinuxEmu.GpuDriver.PageMigration
import UsrLinuxEmu.GpuDriver.Preemption
import UsrLinuxEmu.Dyadic.Block
import UsrLinuxEmu.GpuCore.Buddy
import UsrLinuxEmu.GpuCore.BuddyBlocks
import UsrLinuxEmu.GpuCore.BuddyInvariant
import UsrLinuxEmu.GpuCore.BuddyRequests
import UsrLinuxEmu.GpuCore.BuddySizes
import UsrLinuxEmu.GpuCore.BuddySoundness
import UsrLinuxEmu.GpuCore.BuddyConservation
import UsrLinuxEmu.GpuDriver.SemaphoreManager
import UsrLinuxEmu.GpuDriver.SchedulerOrder
import UsrLinuxEmu.GpuDriver.QueueRing
import UsrLinuxEmu.GpuDriver.HalFences
import UsrLinuxEmu.GpuDriver.StreamCapture
import UsrLinuxEmu.GpuDriver.VaSpaceQueues
import UsrLinuxEmu.GpuDriver.VmaTracking
import UsrLinuxEmu.GpuDriver.BoTable
import UsrLinuxEmu.GpuDriver.MemPool
import UsrLinuxEmu.GpuDriver.MemPoolInvariant
import UsrLinuxEmu.GpuDriver.MemPoolLaw
import UsrLinuxEmu.GpuDriver.FenceEffects
import UsrLinuxEmu.GpuDriver.FenceIds
import UsrLinuxEmu.GpuDriver.SchedulerStarvation
import UsrLinuxEmu.GpuDriver.ChannelProtocol
import UsrLinuxEmu.GpuDriver.ChannelFairness
import UsrLinuxEmu.GpuDriver.Graph
import UsrLinuxEmu.GpuDriver.GraphRoundTrip
import UsrLinuxEmu.Iommu.DmaRemap
import UsrLinuxEmu.Iommu.Ioasid
import UsrLinuxEmu.Iommu.IommuRegistry
import UsrLinuxEmu.Iommu.NotifierPairing
import UsrLinuxEmu.Graph.LinkedRing
import UsrLinuxEmu.Graph.PointerWalk
import UsrLinuxEmu.Graph.Precedence
import UsrLinuxEmu.Kernel.HmmRange
import UsrLinuxEmu.Kernel.ListHead
import UsrLinuxEmu.Kernel.LoadAtomic
import UsrLinuxEmu.Kernel.TopoSort
import UsrLinuxEmu.Kernel.UnloadOrder
import UsrLinuxEmu.Kernel.Workqueue
import UsrLinuxEmu.Kernel.LoadOrder
import UsrLinuxEmu.Kernel.MmShim
import UsrLinuxEmu.Kernel.ModuleLoader
import UsrLinuxEmu.Kernel.WorkqueueService
import UsrLinuxEmu.Kernel.WorkqueueWakeups
import UsrLinuxEmu.GpuDriver.DrmIoctl
import UsrLinuxEmu.GpuDriver.HalUserOps
import UsrLinuxEmu.CText.Numeral
import UsrLinuxEmu.Json.Value
import UsrLinuxEmu.SimHardware.BackdoorEndpoint
import UsrLinuxEmu.SimHardware.BridgeCalls
import UsrLinuxEmu.SimHardware.BridgeLocking
import UsrLinuxEmu.SimHardware.BridgeRefinement
import UsrLinuxEmu.SimHardware.BypassDrain
import UsrLinuxEmu.SimHardware.HostBridge
import UsrLinuxEmu.SimHardware.Topology
import UsrLinuxEmu.SimHardware.TopologyRange
import UsrLinuxEmu.SimHardware.TopologyRoundTrip
import UsrLinuxEmu.Pci.BarAccess
import UsrLinuxEmu.Pci.CapabilityChain
import UsrLinuxEmu.Pci.Msix
import UsrLinuxEmu.Pci.PcieEmu
import UsrLinuxEmu.Pci.SetupBus
import UsrLinuxEmu.Layout.BitArray
import UsrLinuxEmu.Layout.ByteHistory
import UsrLinuxEmu.Layout.Confinement
import UsrLinuxEmu.Layout.Pages
import UsrLinuxEmu.Layout.Window
import UsrLinuxEmu.Layout.LittleEndian
import UsrLinuxEmu.Heap.Borrow
import UsrLinuxEmu.Heap.RefHeap
import UsrLinuxEmu.Heap.SlotTable
import UsrLinuxEmu.Net.Datagrams
import UsrLinuxEmu.Net.Loopback
import UsrLinuxEmu.Net.SkBuff
import UsrLinuxEmu.Net.Socket
import UsrLinuxEmu.GpuDriver.TimestampQueries
