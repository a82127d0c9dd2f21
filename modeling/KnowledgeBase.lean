import KnowledgeBase.ArrayForm.Basic
import KnowledgeBase.ArrayForm.DataValue
import KnowledgeBase.ArrayForm.Diff
import KnowledgeBase.ArrayForm.Entity
import KnowledgeBase.ArrayForm.Error
import KnowledgeBase.ArrayForm.Statement
import KnowledgeBase.Binary64.Basic
import KnowledgeBase.Binary64.Layout
import KnowledgeBase.Binary64.Reading
import KnowledgeBase.Binary64.Rounding
import KnowledgeBase.Binary64.Shortest
import KnowledgeBase.Builder
import KnowledgeBase.Bytes.Reader
import KnowledgeBase.Bytes.Word
import KnowledgeBase.Bytes.Writer
import KnowledgeBase.Change
import KnowledgeBase.Change.Envelope
import KnowledgeBase.Change.Written
import KnowledgeBase.Compression.Decompressor
import KnowledgeBase.Compression.Decoder
import KnowledgeBase.Compression.Frame
import KnowledgeBase.DataValue
import KnowledgeBase.DataValue.Kind
import KnowledgeBase.DataValue.Validity
import KnowledgeBase.Diff.Entity
import KnowledgeBase.Diff.Map
import KnowledgeBase.Diff.Merge
import KnowledgeBase.Diff.Statement
import KnowledgeBase.Digest.Sha256
import KnowledgeBase.Edit
import KnowledgeBase.Entity
import KnowledgeBase.EntityId
import KnowledgeBase.EntityId.Parsing
import KnowledgeBase.Guid
import KnowledgeBase.Inspection
import KnowledgeBase.Json.Basic
import KnowledgeBase.Json.Draft
import KnowledgeBase.Json.Lexeme
import KnowledgeBase.Json.Printer
import KnowledgeBase.Limits
import KnowledgeBase.Main
import KnowledgeBase.ModelError
import KnowledgeBase.Record
import KnowledgeBase.Record.Error
import KnowledgeBase.Reference
import KnowledgeBase.Schema
import KnowledgeBase.SiteLink
import KnowledgeBase.Snak
import KnowledgeBase.SortedMap
import KnowledgeBase.Statement
import KnowledgeBase.StatementList
import KnowledgeBase.Store
import KnowledgeBase.Store.AccessLimit
import KnowledgeBase.Store.Error
import KnowledgeBase.Term
import KnowledgeBase.TermIndex
import KnowledgeBase.TermIndex.Written
import KnowledgeBase.Text.CharClass
import KnowledgeBase.Text.Hex
import KnowledgeBase.Text.Lowercase
import KnowledgeBase.Text.Quoted
import KnowledgeBase.Proofs.SortedMap
import KnowledgeBase.Proofs.ContentEquality
import KnowledgeBase.Proofs.Diff.Map
import KnowledgeBase.Proofs.Diff.StatementKeys
import KnowledgeBase.Proofs.Diff.StatementPatch
import KnowledgeBase.Proofs.Edit
import KnowledgeBase.Proofs.Entity
import KnowledgeBase.Proofs.Diff.Entity
import KnowledgeBase.Proofs.Diff.Agreement
import KnowledgeBase.Proofs.Diff.Operations
import KnowledgeBase.Proofs.Diff.Replay
import KnowledgeBase.Proofs.Diff.Merge
import KnowledgeBase.Proofs.Diff.MergeLaws
import KnowledgeBase.Proofs.Diff.ThreeWay
import KnowledgeBase.Proofs.Diff.Identified
import KnowledgeBase.Proofs.Diff.StatementGroups
import KnowledgeBase.Proofs.Store
import KnowledgeBase.Proofs.Store.NoLostUpdate
import KnowledgeBase.Proofs.Diff.FailedApply
import KnowledgeBase.Proofs.ArrayForm.Construction
import KnowledgeBase.Proofs.Diff.Commute
import KnowledgeBase.Proofs.Store.ChangeFeed
import KnowledgeBase.Proofs.Bytes
import KnowledgeBase.Proofs.CanonicalBytes
import KnowledgeBase.Proofs.Construction
import KnowledgeBase.Proofs.ArrayForm.Members
import KnowledgeBase.Proofs.ArrayForm.DataValue
import KnowledgeBase.Proofs.ArrayForm.Statement
import KnowledgeBase.Proofs.ArrayForm.Entity
import KnowledgeBase.Proofs.ArrayForm.RoundTrip
import KnowledgeBase.Proofs.Store.DataType
import KnowledgeBase.Proofs.Diff.Deletion
import KnowledgeBase.Proofs.Diff.KeyCollisions
import KnowledgeBase.Proofs.Diff.Construction
import KnowledgeBase.Proofs.Mutation
import KnowledgeBase.Proofs.Legality
import KnowledgeBase.Proofs.ArrayForm.Diff
import KnowledgeBase.Proofs.ArrayForm.DiffRoundTrip
import KnowledgeBase.Proofs.Store.History
import KnowledgeBase.Proofs.Json.Words
import KnowledgeBase.Proofs.Json.Reading
import KnowledgeBase.Proofs.ArrayForm.Readable
import KnowledgeBase.Proofs.Change.Written
import KnowledgeBase.Proofs.Change.Fields
import KnowledgeBase.Proofs.Change.Envelope
import KnowledgeBase.Proofs.Change.Compressed
import KnowledgeBase.Proofs.Compression.Decompressor
import KnowledgeBase.Proofs.Compression.Blocks
import KnowledgeBase.Proofs.Compression.Stored
import KnowledgeBase.Proofs.ArrayForm.Equality
import KnowledgeBase.Proofs.Diff.Undo
import KnowledgeBase.Proofs.Ownership
import KnowledgeBase.Proofs.TermIndex
import KnowledgeBase.Proofs.TermIndex.LabelConflicts
import KnowledgeBase.Proofs.Diff.Reapplication
import KnowledgeBase.Proofs.Record
import KnowledgeBase.Proofs.Change.TypeAgreement
import KnowledgeBase.Proofs.Diff.EitherOrder
import KnowledgeBase.Proofs.Diff.AddedOrder
import KnowledgeBase.Proofs.CanonicalOrder
import KnowledgeBase.Proofs.TermIndex.IgnoringCase
import KnowledgeBase.Proofs.ArrayForm.EntityIdParts
import KnowledgeBase.Proofs.Bytes.Word
import KnowledgeBase.Proofs.Bytes.Fields
import KnowledgeBase.Reference.Memo
import KnowledgeBase.Proofs.Reference.Order
import KnowledgeBase.Proofs.Reference.Memo
import KnowledgeBase.Proofs.Snak
import KnowledgeBase.Proofs.Diff.StatementDifference
import KnowledgeBase.Proofs.StatementList
import KnowledgeBase.Proofs.EntityId.Grammar
import KnowledgeBase.Proofs.Guid
import KnowledgeBase.Proofs.TermIndex.DescriptionConflicts
import KnowledgeBase.Proofs.Validation
import KnowledgeBase.Proofs.Store.AccessLimit
import KnowledgeBase.Proofs.Builder
import KnowledgeBase.Proofs.DataValue.Decimal
