import BudokaiRuntime.Foundations.CountedLoop
import BudokaiRuntime.Foundations.ByteLanes
import BudokaiRuntime.Foundations.PartialLoop
import BudokaiRuntime.Foundations.RingBuffer
import BudokaiRuntime.Guest.Memory
import BudokaiRuntime.Guest.Access
import BudokaiRuntime.Spu.Context
import BudokaiRuntime.Spu.Accessors
import BudokaiRuntime.Spu.Dma
import BudokaiRuntime.Spu.Channels
import BudokaiRuntime.Spu.Quadword
import BudokaiRuntime.Spu.HostFpu
import BudokaiRuntime.Spu.Decode
import BudokaiRuntime.Spu.Fields
import BudokaiRuntime.Spu.Execute
import BudokaiRuntime.Spu.Step
import BudokaiRuntime.Spu.ElementLoops
import BudokaiRuntime.Spu.Isa
import BudokaiRuntime.Spu.Encoding
import BudokaiRuntime.Spu.Lanes
import BudokaiRuntime.Spu.QuadLanes
import BudokaiRuntime.Spu.Addressing
import BudokaiRuntime.Spu.Refinement
import BudokaiRuntime.Spu.Conformance
import BudokaiRuntime.Spu.ScalarStore
import BudokaiRuntime.Spu.HostAccess
import BudokaiRuntime.Spu.BlockedRead
import BudokaiRuntime.Spu.ByteOrder
import BudokaiRuntime.Rsx.Renderer
import BudokaiRuntime.Rsx.Fifo
import BudokaiRuntime.Rsx.Termination
import BudokaiRuntime.Rsx.Stream
import BudokaiRuntime.Rsx.Wrap
import BudokaiRuntime.Rsx.PutBound
import BudokaiRuntime.Guest.Stores
import BudokaiRuntime.Guest.GuardedCells
import BudokaiRuntime.Lv2.Objects
import BudokaiRuntime.Lv2.Syscalls
import BudokaiRuntime.Lv2.Effects
import BudokaiRuntime.Lv2.QueueInvariant
import BudokaiRuntime.Lv2.PortSend
import BudokaiRuntime.Lv2.Instances
import BudokaiRuntime.Lv2.Reuse
import BudokaiRuntime.Lv2.PoolHistory
import BudokaiRuntime.Lv2.KindSafety
import BudokaiRuntime.Foundations.Programs
import BudokaiRuntime.Guest.Words
import BudokaiRuntime.Ppu.Context
import BudokaiRuntime.Ppu.Functions
import BudokaiRuntime.Ppu.Frame
import BudokaiRuntime.Ppu.CallingConvention
import BudokaiRuntime.Ppu.Counting
import BudokaiRuntime.Ppu.Release
import BudokaiRuntime.Ppu.ReferenceCounts
import BudokaiRuntime.Ppu.Reentrancy
import BudokaiRuntime.Ppu.GuestCalls
import BudokaiRuntime.Guest.ThreadStacks
import BudokaiRuntime.Spu.LoadElf
import BudokaiRuntime.Spu.ElfImage
import BudokaiRuntime.Spu.DmaRoundTrip
import BudokaiRuntime.Spu.OutboundMailbox
import BudokaiRuntime.Lv2.SemaphoreLaw
import BudokaiRuntime.Lv2.LightMutex
import BudokaiRuntime.Lv2.ThreadTable
import BudokaiRuntime.Ppu.Reservation
import BudokaiRuntime.Foundations.EventRuns
import BudokaiRuntime.Spu.Spurs
import BudokaiRuntime.Spu.RestartDiscipline
import BudokaiRuntime.Spu.KernelEntry
import BudokaiRuntime.Spu.SlotDispatch
import BudokaiRuntime.Spu.SlotIsolation
import BudokaiRuntime.Spu.ProgramCounter
import BudokaiRuntime.Spu.ChannelCount
import BudokaiRuntime.Spu.CommandSet
import BudokaiRuntime.Guest.MemoryMap
import BudokaiRuntime.Spu.MappedDma
import BudokaiRuntime.Rsx.Incremental
import BudokaiRuntime.Rsx.CommandBuffer
import BudokaiRuntime.Foundations.Pieces
import BudokaiRuntime.Rsx.Batch
import BudokaiRuntime.Foundations.ZOrder
import BudokaiRuntime.Rsx.Morton
import BudokaiRuntime.Rsx.TextureEntry
import BudokaiRuntime.Guest.GameElf
import BudokaiRuntime.Spu.StepFrame
import BudokaiRuntime.Spu.Results
import BudokaiRuntime.Spu.QuadShifts
import BudokaiRuntime.Foundations.CarryChain
import BudokaiRuntime.Spu.Multiword
import BudokaiRuntime.Spu.WordProduct
import BudokaiRuntime.Lv2.Timeouts
import BudokaiRuntime.Lv2.ThreadCreation
import BudokaiRuntime.Lv2.TryReceive
import BudokaiRuntime.Rsx.Blend
import BudokaiRuntime.Rsx.Overlay
import BudokaiRuntime.Ppu.VectorLoads
import BudokaiRuntime.Foundations.LinkedList
import BudokaiRuntime.Ppu.Recorded
import BudokaiRuntime.Ppu.TableSlots
import BudokaiRuntime.Ppu.DestructorWalk
import BudokaiRuntime.Foundations.UnsignedShifts
import BudokaiRuntime.Ppu.RotateMask
import BudokaiRuntime.Foundations.SignedArithmetic
import BudokaiRuntime.Spu.SignedMultiply
import BudokaiRuntime.Ppu.VectorCompare
import BudokaiRuntime.Foundations.ProgramGraph
import BudokaiRuntime.Ppu.AddFix
import BudokaiRuntime.Lv2.MutexExclusion
import BudokaiRuntime.Rsx.Submission
import BudokaiRuntime.Foundations.Champion
import BudokaiRuntime.Foundations.Binary32
import BudokaiRuntime.Rsx.Rasterizer
import BudokaiRuntime.Rsx.DepthBuffer
import BudokaiRuntime.Rsx.Frame
import BudokaiRuntime.Rsx.SphereTick
import BudokaiRuntime.Spu.ProgramRun
import BudokaiRuntime.Rsx.Backgrounds
import BudokaiRuntime.Ppu.Emitted
import BudokaiRuntime.Ppu.ObjectArray
import BudokaiRuntime.Foundations.ConditionalLines
import BudokaiRuntime.Ppu.OffByFour
