import MiniDB.Foundation.Run
import MiniDB.Concurrency.LockManager
import MiniDB.Concurrency.LockCompatibility
import MiniDB.Concurrency.DeadLockDetector
import MiniDB.Concurrency.DeadlockSearch
import MiniDB.Parser.Lists
import MiniDB.Parser.Statements
import MiniDB.Parser.Remainder
import MiniDB.Parser.Printing
import MiniDB.Parser.RoundTrip
import MiniDB.Foundation.Bytes
import MiniDB.Foundation.FileStream
import MiniDB.Storage.DiskManager
import MiniDB.Storage.ReadAfterWrite
import MiniDB.Buffer.BufferPool
import MiniDB.Buffer.PoolSteps
import MiniDB.Buffer.Residency
import MiniDB.Buffer.Transparency
import MiniDB.Buffer.PoolClient
import MiniDB.Storage.TableHeap
import MiniDB.Buffer.Resident
import MiniDB.Storage.HeapLayout
import MiniDB.Storage.StoredTuples
import MiniDB.Foundation.Refinement
import MiniDB.Index.BPlusTree
import MiniDB.Index.Multimap
import MiniDB.Buffer.Latches
import MiniDB.Storage.LayerManager
import MiniDB.Database.Operations
import MiniDB.Database.SelfDeadlock
import MiniDB.Buffer.Exhaustion
import MiniDB.Buffer.PageStore
import MiniDB.Executors.SeqScanExecutor
import MiniDB.Executors.FullScan
import MiniDB.Executors.IndexScanExecutor
import MiniDB.Executors.InsertExecutor
import MiniDB.Index.TreePages
import MiniDB.Index.LeafPages
import MiniDB.Storage.HeapPages
import MiniDB.Database.SharedPool
import MiniDB.Database.TreeDescent
import MiniDB.Executors.ScanAgreement
import MiniDB.Index.LeafChain
import MiniDB.Parser.TokenStream
import MiniDB.Parser.CaseFolding
import MiniDB.Log.LogBuffer
import MiniDB.Foundation.Framing
import MiniDB.Log.LogFile
import MiniDB.Concurrency.LockAgreement
import MiniDB.Concurrency.LockUpgrade
import MiniDB.Concurrency.VictimSelection
import MiniDB.Concurrency.ServerManager
import MiniDB.Concurrency.Shutdown
import MiniDB.Buffer.DurablePoint
import MiniDB.Buffer.Temperature
import MiniDB.Executors.QueryOperators
import MiniDB.Executors.LayeredScan
import MiniDB.Executors.MergeStreams
import MiniDB.Executors.GatherStreams
import MiniDB.Executors.JoinStreams
import MiniDB.Executors.Migration
import MiniDB.Executors.Restart
import MiniDB.Foundation.Pattern
import MiniDB.Optimizer.QueryOptimizer
import MiniDB.Optimizer.TimeWindows
import MiniDB.Foundation.Segment
import MiniDB.Index.LeafLayout
import MiniDB.Index.LeafInsert
import MiniDB.Index.LeafSplit
import MiniDB.Buffer.PageService
import MiniDB.Index.LeafRemove
import MiniDB.Index.RootRouting
import MiniDB.Index.TreeSearch
import MiniDB.Index.ChainWalk
import MiniDB.Buffer.PinCounts
import MiniDB.Executors.ScanPins
import MiniDB.Storage.TupleUpdate
import MiniDB.Storage.ServedHeap
import MiniDB.Index.ServedInsert
import MiniDB.Index.TreeShape
import MiniDB.Buffer.Shortage
import MiniDB.Index.LeafKeys
import MiniDB.Index.InsertAtomicity
import MiniDB.Index.CellPrograms
import MiniDB.Index.CellBounds
import MiniDB.Index.CellTree
import MiniDB.Index.TreeAccesses
import MiniDB.Index.LeafOverflow
import MiniDB.Buffer.PinLedger
import MiniDB.Foundation.Walk
import MiniDB.Buffer.ColdFirst
import MiniDB.Executors.TupleAccesses
import MiniDB.Buffer.SafePages
import MiniDB.Buffer.PageVisits
import MiniDB.Storage.HeapVisits
import MiniDB.Storage.HeapRuns
import MiniDB.Storage.CopyBounds
import MiniDB.Storage.UsableRids
import MiniDB.Buffer.OneLap
import MiniDB.Concurrency.EdgeSets
import MiniDB.Parser.ListAttributes
import MiniDB.Parser.CursorPrograms
import MiniDB.Parser.CursorReads
import MiniDB.Parser.CursorSafety
import MiniDB.Parser.Names
import MiniDB.Executors.CrossProduct
import MiniDB.Executors.Aggregates
import MiniDB.Executors.SortedPairs
import MiniDB.Executors.LazyInit
import MiniDB.Executors.InsertRetries
import MiniDB.Executors.SelfInsert
import MiniDB.Storage.MigrationRate
import MiniDB.Storage.MigrationRefusals
import MiniDB.Index.InternalSplit
import MiniDB.Storage.PageOffsets
import MiniDB.Concurrency.RequestFlow
import MiniDB.Concurrency.Wakeups
import MiniDB.Executors.LayeredPlans
import MiniDB.Buffer.LentPages
import MiniDB.Database.PinSessions
import MiniDB.Buffer.FittingPool
import MiniDB.Buffer.FittingRestarts
import MiniDB.Concurrency.Completion
import MiniDB.Executors.PlanRewrites
import MiniDB.Log.TornLog
import MiniDB.Storage.MigrationLogs
import MiniDB.Foundation.NextFit
import MiniDB.Parser.NormalForm
import MiniDB.Storage.HeapPacking
import MiniDB.Concurrency.TwoPhaseLocking
