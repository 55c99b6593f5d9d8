import ZNCache.CacheMap
import ZNCache.CacheMapAgreement
import ZNCache.CacheMapKeys
import ZNCache.ChunkCached
import ZNCache.ChunkCustody
import ZNCache.ChunkCustodyRuns
import ZNCache.ChunkDevice
import ZNCache.ChunkDuties
import ZNCache.ChunkEviction
import ZNCache.ChunkGc
import ZNCache.ChunkGcData
import ZNCache.ChunkGcZones
import ZNCache.ChunkHeap
import ZNCache.ChunkHeapRoom
import ZNCache.ChunkHits
import ZNCache.ChunkLedger
import ZNCache.ChunkLru
import ZNCache.ChunkMetadata
import ZNCache.ChunkPlacement
import ZNCache.ChunkPolicy
import ZNCache.ChunkPriority
import ZNCache.ChunkQueue
import ZNCache.ChunkQuota
import ZNCache.ChunkReaders
import ZNCache.ChunkTransfer
import ZNCache.Completion
import ZNCache.DeviceProtocol
import ZNCache.EvictProgress
import ZNCache.EvictedChunks
import ZNCache.FailedMiss
import ZNCache.Fetches
import ZNCache.FgEviction
import ZNCache.FoundEntry
import ZNCache.GcProgress
import ZNCache.HeapStorage
import ZNCache.HitData
import ZNCache.HitRatio
import ZNCache.InvalidChunks
import ZNCache.Lib.ByteDevice
import ZNCache.Lib.HeapOrder
import ZNCache.Lib.LinkedQueue
import ZNCache.Lib.Loop
import ZNCache.Lib.Recency
import ZNCache.Lib.Reclaim
import ZNCache.Lib.RetryLoop
import ZNCache.Lib.Simulation
import ZNCache.Lib.Tally
import ZNCache.Lib.Transition
import ZNCache.Lib.ZoneLru
import ZNCache.Lib.ZonedStorage
import ZNCache.LruRefinement
import ZNCache.Machine
import ZNCache.MinHeap
import ZNCache.MinHeapQueue
import ZNCache.Occupancy
import ZNCache.Placement
import ZNCache.PqueueEntry
import ZNCache.Profiler
import ZNCache.Promotional
import ZNCache.PromotionalEviction
import ZNCache.PromotionalLru
import ZNCache.QueuedZones
import ZNCache.Quiescence
import ZNCache.RecordedIds
import ZNCache.Replay
import ZNCache.ReplayEnd
import ZNCache.SequentialGet
import ZNCache.SequentialRuns
import ZNCache.Shutdown
import ZNCache.SingleWriter
import ZNCache.SlotMoves
import ZNCache.SoloChunk
import ZNCache.StaleEntries
import ZNCache.SystemLru
import ZNCache.SystemPlacement
import ZNCache.ValidateRead
import ZNCache.WaitingZones
import ZNCache.WorkerSteps
import ZNCache.Workers
import ZNCache.Workload
import ZNCache.WritePointer
import ZNCache.ZoneAnswers
import ZNCache.ZoneCounts
import ZNCache.ZoneLoss
import ZNCache.ZoneOwnership
import ZNCache.ZonePartition
import ZNCache.ZoneStateManager
import ZNCache.ZoneStateManagerRuns
import ZNCache.ZoneStateManagerSpec
import ZNCache.ZoneWear
