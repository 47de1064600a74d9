import SqlCompose.Build
import SqlCompose.Chain
import SqlCompose.Chain.Edit
import SqlCompose.Compaction
import SqlCompose.Condition
import SqlCompose.Configuration
import SqlCompose.Error
import SqlCompose.Fragment
import SqlCompose.Identifier
import SqlCompose.Keyword
import SqlCompose.LogRecord
import SqlCompose.Logging.File
import SqlCompose.Logging.Handler
import SqlCompose.Logging.Layout
import SqlCompose.Logging.Notice
import SqlCompose.Logging.Threshold
import SqlCompose.NamedBinds
import SqlCompose.Numbering
import SqlCompose.Predicate
import SqlCompose.Proofs.AcceptedLinks
import SqlCompose.Proofs.AttachedExpressions
import SqlCompose.Proofs.BoundValues
import SqlCompose.Proofs.BuildCalls
import SqlCompose.Proofs.BuildReports
import SqlCompose.Proofs.BuiltValues
import SqlCompose.Proofs.Clones
import SqlCompose.Proofs.ClosedNames
import SqlCompose.Proofs.CompactionMeaning
import SqlCompose.Proofs.Containers
import SqlCompose.Proofs.CustodyCalls
import SqlCompose.Proofs.CustodyCreation
import SqlCompose.Proofs.EmbeddedNumbers
import SqlCompose.Proofs.ExistingColumns
import SqlCompose.Proofs.FailedCalls
import SqlCompose.Proofs.FixedValues
import SqlCompose.Proofs.FreshCopies
import SqlCompose.Proofs.GroupedColumns
import SqlCompose.Proofs.JoinedConditions
import SqlCompose.Proofs.MakerDefaults
import SqlCompose.Proofs.MatchedValues
import SqlCompose.Proofs.NamedValues
import SqlCompose.Proofs.NestedMerging
import SqlCompose.Proofs.NestedQuotations
import SqlCompose.Proofs.OpaqueNames
import SqlCompose.Proofs.OutputNames
import SqlCompose.Proofs.OwnedValues
import SqlCompose.Proofs.PositionalInvariant
import SqlCompose.Proofs.ReachedSessions
import SqlCompose.Proofs.RenderedParts
import SqlCompose.Proofs.Rules
import SqlCompose.Proofs.SettledSchemas
import SqlCompose.Proofs.SnapshotIsolation
import SqlCompose.Proofs.StableReferences
import SqlCompose.Proofs.SuppliedValues
import SqlCompose.Query
import SqlCompose.Query.Edit
import SqlCompose.Query.Part
import SqlCompose.Query.Values
import SqlCompose.Quoted
import SqlCompose.Session.Attribute
import SqlCompose.Session.Building
import SqlCompose.Session.ChainMethods
import SqlCompose.Session.Container
import SqlCompose.Session.Creation
import SqlCompose.Session.CteMethods
import SqlCompose.Session.Method
import SqlCompose.Session.Object
import SqlCompose.Session.QueryMethods
import SqlCompose.Session.Reading
import SqlCompose.Session.State
import SqlCompose.Session.Step
import SqlCompose.Session.TableMethods
import SqlCompose.Session.View
import SqlCompose.Signature
import SqlCompose.Statement.Clause
import SqlCompose.Statement.Compound
import SqlCompose.Statement.Cte
import SqlCompose.Statement.Delete
import SqlCompose.Statement.Insert
import SqlCompose.Statement.Join
import SqlCompose.Statement.OrderEntry
import SqlCompose.Statement.Restriction
import SqlCompose.Statement.Select
import SqlCompose.Statement.Settings
import SqlCompose.Statement.Update
import SqlCompose.Table.Column
import SqlCompose.Table.ColumnType
import SqlCompose.Table.Statement
import SqlCompose.Text
import SqlCompose.Text.Blank
import SqlCompose.Text.Digit
import SqlCompose.Text.LetterCase
import SqlCompose.Text.Path
import SqlCompose.Text.Printable
import SqlCompose.Text.Range
import SqlCompose.Text.Shown
import SqlCompose.Text.Word
import SqlCompose.Token
import SqlCompose.Value
import SqlCompose.Value.Addition
import SqlCompose.Value.Copy
import SqlCompose.Value.Equality
import SqlCompose.Value.Literal
import SqlCompose.Value.Moment
import SqlCompose.Value.Number
import SqlCompose.Value.Reading
import SqlCompose.Value.Shown
import SqlCompose.Wording
import SqlCompose.Proofs.BoundMarkers
import SqlCompose.Proofs.CheckedValues
import SqlCompose.Proofs.KeptQuotes
import SqlCompose.Proofs.QuoteConditions
import SqlCompose.Proofs.Composites
import SqlCompose.Proofs.IncompleteQueries
import SqlCompose.Proofs.ConfigurationOrder
