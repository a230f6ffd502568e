import PackedMatrix.Archive
import PackedMatrix.Archive.Bytes
import PackedMatrix.Archive.Digest
import PackedMatrix.Archive.Error
import PackedMatrix.Archive.GroupBytes
import PackedMatrix.Archive.Header
import PackedMatrix.Archive.Lz4
import PackedMatrix.Archive.Zstd
import PackedMatrix.Archive.Zstd.Blocks
import PackedMatrix.Archive.Zstd.Frame
import PackedMatrix.Bitmap
import PackedMatrix.Bitmap.Extract
import PackedMatrix.Bitmap.SeenRows
import PackedMatrix.Block
import PackedMatrix.Block.Layout
import PackedMatrix.Cell
import PackedMatrix.CodeMap
import PackedMatrix.Command
import PackedMatrix.Compressor
import PackedMatrix.Cost
import PackedMatrix.CountingSort
import PackedMatrix.Csv
import PackedMatrix.Decimal
import PackedMatrix.Decimal.Read
import PackedMatrix.Dictionary
import PackedMatrix.Encoding
import PackedMatrix.Error
import PackedMatrix.Failure
import PackedMatrix.Fault
import PackedMatrix.Files
import PackedMatrix.Files.Directory
import PackedMatrix.Group
import PackedMatrix.Group.Build
import PackedMatrix.Group.OffsetStreams
import PackedMatrix.Group.Read
import PackedMatrix.Group.RunStreams
import PackedMatrix.Group.SparseShape
import PackedMatrix.Group.Streams
import PackedMatrix.Group.Validity
import PackedMatrix.Inspect
import PackedMatrix.Json
import PackedMatrix.Json.Outline
import PackedMatrix.Json.Parse
import PackedMatrix.Main
import PackedMatrix.Merge
import PackedMatrix.Packed
import PackedMatrix.Plan
import PackedMatrix.Proofs.AcceptedBitmaps
import PackedMatrix.Proofs.AcceptedPlans
import PackedMatrix.Proofs.AcceptedReads
import PackedMatrix.Proofs.ArchivePrefixes
import PackedMatrix.Proofs.ArchiveRoundTrip
import PackedMatrix.Proofs.Attempts
import PackedMatrix.Proofs.BitmapGroups
import PackedMatrix.Proofs.BitmapView
import PackedMatrix.Proofs.BlockChanges
import PackedMatrix.Proofs.BlockCopies
import PackedMatrix.Proofs.BlockLayout
import PackedMatrix.Proofs.BuildFailures
import PackedMatrix.Proofs.BuiltGroups
import PackedMatrix.Proofs.BuiltStreams
import PackedMatrix.Proofs.CanonicalBitmaps
import PackedMatrix.Proofs.CodeMapReads
import PackedMatrix.Proofs.CodeMapWrites
import PackedMatrix.Proofs.Coherence
import PackedMatrix.Proofs.ColumnMerge
import PackedMatrix.Proofs.CountingSort
import PackedMatrix.Proofs.Cover
import PackedMatrix.Proofs.Decoding
import PackedMatrix.Proofs.DefaultGrouping
import PackedMatrix.Proofs.DictionaryTuples
import PackedMatrix.Proofs.DisjointMerges
import PackedMatrix.Proofs.Encodings
import PackedMatrix.Proofs.Endings
import PackedMatrix.Proofs.ExactCosts
import PackedMatrix.Proofs.Extraction
import PackedMatrix.Proofs.FailureContexts
import PackedMatrix.Proofs.Fallback
import PackedMatrix.Proofs.FrequencySort
import PackedMatrix.Proofs.GreedyChoice
import PackedMatrix.Proofs.Grids
import PackedMatrix.Proofs.GroupBuilds
import PackedMatrix.Proofs.GroupBytes
import PackedMatrix.Proofs.GroupChecks
import PackedMatrix.Proofs.GroupCodes
import PackedMatrix.Proofs.GroupLayouts
import PackedMatrix.Proofs.GroupOrder
import PackedMatrix.Proofs.GroupReads
import PackedMatrix.Proofs.GroupSizes
import PackedMatrix.Proofs.HeaderBytes
import PackedMatrix.Proofs.Increasing
import PackedMatrix.Proofs.Influence
import PackedMatrix.Proofs.LargestList
import PackedMatrix.Proofs.ListedReads
import PackedMatrix.Proofs.LoadedHeaders
import PackedMatrix.Proofs.Lossless
import PackedMatrix.Proofs.MergeStrategies
import PackedMatrix.Proofs.Merging
import PackedMatrix.Proofs.MovedTuples
import PackedMatrix.Proofs.OffsetBlocks
import PackedMatrix.Proofs.OffsetReads
import PackedMatrix.Proofs.OffsetRoundTrip
import PackedMatrix.Proofs.Orientation
import PackedMatrix.Proofs.PackedReads
import PackedMatrix.Proofs.PlanCovers
import PackedMatrix.Proofs.PlanSizes
import PackedMatrix.Proofs.PlannedAttempts
import PackedMatrix.Proofs.PointerRange
import PackedMatrix.Proofs.ProfileNumbers
import PackedMatrix.Proofs.RecordedEstimates
import PackedMatrix.Proofs.Renumbering
import PackedMatrix.Proofs.RowIndexChecks
import PackedMatrix.Proofs.RowIndexEncodings
import PackedMatrix.Proofs.RowIndexReads
import PackedMatrix.Proofs.RowReaders
import PackedMatrix.Proofs.RunReads
import PackedMatrix.Proofs.RunRoundTrip
import PackedMatrix.Proofs.SeenRows
import PackedMatrix.Proofs.Segments
import PackedMatrix.Proofs.Selection
import PackedMatrix.Proofs.SlotWords
import PackedMatrix.Proofs.SourceView
import PackedMatrix.Proofs.SparseDefaults
import PackedMatrix.Proofs.SparseGroups
import PackedMatrix.Proofs.SparseRows
import PackedMatrix.Proofs.SparseShapes
import PackedMatrix.Proofs.SplitProfiles
import PackedMatrix.Proofs.Steps
import PackedMatrix.Proofs.StreamChecks
import PackedMatrix.Proofs.StreamFinds
import PackedMatrix.Proofs.StreamLimits
import PackedMatrix.Proofs.Transposition
import PackedMatrix.Proofs.Triplets
import PackedMatrix.Proofs.UnseenReading
import PackedMatrix.Proofs.Writes
import PackedMatrix.Proofs.ZeroFree
import PackedMatrix.RowIndex
import PackedMatrix.Search
import PackedMatrix.Selection
import PackedMatrix.Settings
import PackedMatrix.Settings.Yaml
import PackedMatrix.Source
import PackedMatrix.Statistics
import PackedMatrix.Statistics.Json
import PackedMatrix.Text
import PackedMatrix.Text.Hidden
import PackedMatrix.Text.Quoted
import PackedMatrix.Timestamp
import PackedMatrix.Total
import PackedMatrix.Workers
import PackedMatrix.Yaml
import PackedMatrix.Yaml.BlockText
import PackedMatrix.Yaml.Cursor
import PackedMatrix.Yaml.Document
import PackedMatrix.Yaml.Quoted
import PackedMatrix.Yaml.Scalar
import PackedMatrix.Yaml.Tag
import PackedMatrix.Yaml.Token
