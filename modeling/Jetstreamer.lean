import Jetstreamer.Lib.Codec
import Jetstreamer.Lib.Reordering
import Jetstreamer.Lib.Runs
import Jetstreamer.Lib.Arena
import Jetstreamer.Lib.Shadow
import Jetstreamer.Lib.Ensures
import Jetstreamer.Lib.Logged
import Jetstreamer.Lib.Chained
import Jetstreamer.Lib.Levels
import Jetstreamer.Lib.Eytzinger
import Jetstreamer.Lib.Records
import Jetstreamer.Lib.Intervals
import Jetstreamer.Lencode.Varint
import Jetstreamer.Lencode.Primitives
import Jetstreamer.Lencode.Dedupe
import Jetstreamer.Lencode.Diff
import Jetstreamer.Lencode.DiffRoundTrip
import Jetstreamer.Horizon.ZeroVec
import Jetstreamer.Horizon.AccountUpdates
import Jetstreamer.Horizon.Transactions
import Jetstreamer.Horizon.Notifications
import Jetstreamer.Horizon.DecoderShadows
import Jetstreamer.Horizon.Status
import Jetstreamer.Horizon.Convert
import Jetstreamer.Horizon.InPlace
import Jetstreamer.Horizon.Lossless
import Jetstreamer.Horizon.Populate
import Jetstreamer.Archive.Format
import Jetstreamer.Horizon.Arenas
import Jetstreamer.Archive.Frames
import Jetstreamer.Archive.FrameRoundTrip
import Jetstreamer.Archive.Writer
import Jetstreamer.Archive.WriterFrames
import Jetstreamer.Archive.Layout
import Jetstreamer.Archive.Reader
import Jetstreamer.Archive.Readable
import Jetstreamer.Archive.FrameShadows
import Jetstreamer.Archive.Positions
import Jetstreamer.Archive.FrameChain
import Jetstreamer.Archive.ReadModel
import Jetstreamer.Archive.WrittenRuns
import Jetstreamer.Archive.WrittenCalls
import Jetstreamer.Archive.RoundTrip
import Jetstreamer.Archive.Capacity
import Jetstreamer.Archive.ReaderSessions
import Jetstreamer.Archive.StoredWindows
import Jetstreamer.Ggjet.Format
import Jetstreamer.Ggjet.Writer
import Jetstreamer.Ggjet.Reader
import Jetstreamer.Ggjet.Frames
import Jetstreamer.Ggjet.Soundness
import Jetstreamer.Ggjet.Layout
import Jetstreamer.Ggjet.RoundTrip
import Jetstreamer.Ggjet.Checkpoint
import Jetstreamer.Ggjet.Atomicity
import Jetstreamer.Node.Rounds
import Jetstreamer.Node.RoundOptimality
import Jetstreamer.Node.Bank
import Jetstreamer.Node.Entries
import Jetstreamer.Node.Replay
import Jetstreamer.Node.ReplayEquivalence
import Jetstreamer.Node.SlotBuffer
import Jetstreamer.Node.Scheduler
import Jetstreamer.Node.SchedulerRuns
import Jetstreamer.Node.SchedulerSafety
import Jetstreamer.Node.ReplayOrder
import Jetstreamer.Node.ReplayCompleteness
import Jetstreamer.Node.Resume
import Jetstreamer.Node.Restart
import Jetstreamer.Node.Streaming
import Jetstreamer.Node.Retry
import Jetstreamer.Node.CutSlots
import Jetstreamer.Node.Pipeline
import Jetstreamer.Firehose.Source
import Jetstreamer.Firehose.Block
import Jetstreamer.Firehose.BlockRuns
import Jetstreamer.Firehose.Worker
import Jetstreamer.Firehose.Geyser
import Jetstreamer.Firehose.EngineAgreement
import Jetstreamer.Firehose.HorizonStream
import Jetstreamer.Firehose.HorizonAgreement
import Jetstreamer.Plugin.SchedulerMetrics
import Jetstreamer.Plugin.TxMetadata
import Jetstreamer.Plugin.BudgetRequests
import Jetstreamer.Plugin.ExactCost
import Jetstreamer.Firehose.Dataframes
import Jetstreamer.Lib.Iteration
import Jetstreamer.Firehose.Reassembly
import Jetstreamer.Firehose.TransactionNodes
import Jetstreamer.Firehose.CompactIndex
import Jetstreamer.Firehose.EpochIndexes
import Jetstreamer.Firehose.IndexSafety
import Jetstreamer.Lib.Leb128
import Jetstreamer.Firehose.Uvarint
import Jetstreamer.Firehose.Coverage
import Jetstreamer.Firehose.Subranges
import Jetstreamer.Lib.Tally
import Jetstreamer.Firehose.Stats
import Jetstreamer.Lib.Semaphore
import Jetstreamer.Firehose.Prefetch
import Jetstreamer.Firehose.PrefetchBudget
import Jetstreamer.Firehose.PrefetchProgress
import Jetstreamer.Firehose.PrefetchStream
import Jetstreamer.Lib.OrderedMap
import Jetstreamer.Node.Recorder
import Jetstreamer.Node.RecorderRuns
import Jetstreamer.Node.RecorderCompleteness
