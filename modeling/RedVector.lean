import RedVector.Command.BitRanges
import RedVector.Command.BloomFilters
import RedVector.Command.Errors
import RedVector.Command.Extremes
import RedVector.Command.FtPanics
import RedVector.Command.HashCounters
import RedVector.Command.ListRanges
import RedVector.Command.Merges
import RedVector.Command.Moves
import RedVector.Command.Quoting
import RedVector.Command.Ranks
import RedVector.Command.Readonly
import RedVector.Command.Scan
import RedVector.Command.ScoreUpdates
import RedVector.Command.Selection
import RedVector.Command.SetAlgebra
import RedVector.Command.Sorting
import RedVector.Command.Volatile
import RedVector.Database.Expiry
import RedVector.Database.SlowLog
import RedVector.Gpu.FullProbe
import RedVector.Parser.Panics
import RedVector.Persistence.Restart
import RedVector.Qdrant.Durability
import RedVector.Qdrant.Nearest
import RedVector.Quantization.Sq8Quantizer
import RedVector.Quantization.TrainedPq
import RedVector.Rvf2.Corrupt
import RedVector.Rvf2.Lookup
import RedVector.Rvf2.Manifest
import RedVector.Rvf2.Prefetched
import RedVector.Rvf2.QuantizedScores
import RedVector.Rvf2.Retention
import RedVector.Server.AccessTimes
import RedVector.Server.Departure
import RedVector.Server.Indexes
import RedVector.Server.Introspection
import RedVector.Server.Isolation
import RedVector.Server.Lifecycle
import RedVector.Server.Memory
import RedVector.Util.CutQuotes
import RedVector.Util.GlobLanguage
import RedVector.Util.Requoted
import RedVector.Value.Fidelity
import RedVector.Value.Primitives
import RedVector.VectorSearch.Api
import RedVector.VectorSearch.Coherence
