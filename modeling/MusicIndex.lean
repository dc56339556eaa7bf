import MusicIndex.Index.Inventory
import MusicIndex.Main
import MusicIndex.Proofs.FirstOccurrence
import MusicIndex.Proofs.KeyedTable
import MusicIndex.Proofs.Call
import MusicIndex.Proofs.Ledger
import MusicIndex.Proofs.LedgerStep
import MusicIndex.Proofs.History
import MusicIndex.Proofs.FeedRun
import MusicIndex.Proofs.LedgerRead
import MusicIndex.Proofs.RecordLog
import MusicIndex.Proofs.LinkLog
import MusicIndex.Proofs.Integrity
import MusicIndex.Proofs.Transaction
import MusicIndex.Proofs.TransactionRun
import MusicIndex.Proofs.Rollback
import MusicIndex.Proofs.Content
import MusicIndex.Proofs.Separation
import MusicIndex.Proofs.Convergence
import MusicIndex.Proofs.Growth
import MusicIndex.Proofs.AppendOnly
import MusicIndex.Proofs.FeedReport
import MusicIndex.Proofs.Replay
import MusicIndex.Proofs.Selection
import MusicIndex.Proofs.Preference
import MusicIndex.Proofs.Navigation
import MusicIndex.Proofs.Viewing
import MusicIndex.Proofs.RecordFields
import MusicIndex.Proofs.Distance
import MusicIndex.Proofs.Survey
import MusicIndex.Proofs.Queue
import MusicIndex.Proofs.Extent
import MusicIndex.Proofs.Neighbourhood
import MusicIndex.Proofs.PathSet
import MusicIndex.Proofs.ViewTree
import MusicIndex.Proofs.FanOut
import MusicIndex.Proofs.ViewDepth
import MusicIndex.Proofs.GraphDepth
import MusicIndex.Proofs.Adjacency
import MusicIndex.Proofs.LinkEnds
import MusicIndex.Proofs.CoBinding
import MusicIndex.Proofs.DotText
import MusicIndex.Proofs.Resolution
import MusicIndex.Proofs.FeedSegments
import MusicIndex.Proofs.FeedOutcomes
import MusicIndex.Proofs.Accounting
import MusicIndex.Proofs.FirstFailure
import MusicIndex.Proofs.DirectoryWalk
import MusicIndex.Proofs.FilePaths
import MusicIndex.Proofs.FileLookup
import MusicIndex.Proofs.FeedFiles
import MusicIndex.Proofs.NumeralReading
import MusicIndex.Proofs.TextReading
import MusicIndex.Proofs.MemberOrder
import MusicIndex.Proofs.Spelling
import MusicIndex.Proofs.TypedLinks
import MusicIndex.Proofs.EntrySpelling
import MusicIndex.Proofs.EntryGrammar
import MusicIndex.Proofs.LineEnds
import MusicIndex.Proofs.JsonData
import MusicIndex.Proofs.NaturalKey
import MusicIndex.Proofs.ViewJson
import MusicIndex.Proofs.ViewText
