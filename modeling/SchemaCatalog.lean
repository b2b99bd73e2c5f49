import SchemaCatalog.CatalogError
import SchemaCatalog.Database.Basic
import SchemaCatalog.Database.Columns
import SchemaCatalog.Database.Objects
import SchemaCatalog.Database.Schemas
import SchemaCatalog.Execution.Basic
import SchemaCatalog.Execution.Column
import SchemaCatalog.Execution.Constraint
import SchemaCatalog.Execution.Object
import SchemaCatalog.Execution.Run
import SchemaCatalog.Execution.Table
import SchemaCatalog.Json.Decode
import SchemaCatalog.Json.Reader
import SchemaCatalog.Json.Writer
import SchemaCatalog.NameMap
import SchemaCatalog.Object
import SchemaCatalog.ObjectKind
import SchemaCatalog.Product
import SchemaCatalog.Proofs.Actions
import SchemaCatalog.Proofs.AnyHost
import SchemaCatalog.Proofs.Attachment
import SchemaCatalog.Proofs.Carrying
import SchemaCatalog.Proofs.CaseRules
import SchemaCatalog.Proofs.Changes
import SchemaCatalog.Proofs.ClosedSessions
import SchemaCatalog.Proofs.ColumnChanges
import SchemaCatalog.Proofs.ColumnNames
import SchemaCatalog.Proofs.Confinement
import SchemaCatalog.Proofs.Consistency
import SchemaCatalog.Proofs.Departures
import SchemaCatalog.Proofs.Detachment
import SchemaCatalog.Proofs.Effects
import SchemaCatalog.Proofs.Evolution
import SchemaCatalog.Proofs.Execution.Basic
import SchemaCatalog.Proofs.Execution.Column
import SchemaCatalog.Proofs.Execution.Constraint
import SchemaCatalog.Proofs.Execution.Index
import SchemaCatalog.Proofs.Execution.Object
import SchemaCatalog.Proofs.Execution.Table
import SchemaCatalog.Proofs.FailedRemovals
import SchemaCatalog.Proofs.FirstFreeName
import SchemaCatalog.Proofs.ForeignKeys
import SchemaCatalog.Proofs.FreshName
import SchemaCatalog.Proofs.Growth
import SchemaCatalog.Proofs.IfNotExists
import SchemaCatalog.Proofs.IndexColumns
import SchemaCatalog.Proofs.IndexUndo
import SchemaCatalog.Proofs.Isolation
import SchemaCatalog.Proofs.LiveNames
import SchemaCatalog.Proofs.Maps
import SchemaCatalog.Proofs.Matching
import SchemaCatalog.Proofs.NameSpaces
import SchemaCatalog.Proofs.ObjectRenaming
import SchemaCatalog.Proofs.Operations
import SchemaCatalog.Proofs.Orphans
import SchemaCatalog.Proofs.OutsideReaders
import SchemaCatalog.Proofs.Placement
import SchemaCatalog.Proofs.PrimaryKeys
import SchemaCatalog.Proofs.Reachable
import SchemaCatalog.Proofs.Readers
import SchemaCatalog.Proofs.References
import SchemaCatalog.Proofs.Removal
import SchemaCatalog.Proofs.RemovalErrors
import SchemaCatalog.Proofs.RemovalOrder
import SchemaCatalog.Proofs.Reordering
import SchemaCatalog.Proofs.ReportedCycles
import SchemaCatalog.Proofs.ReservationFrame
import SchemaCatalog.Proofs.ReservationOwners
import SchemaCatalog.Proofs.Reservations
import SchemaCatalog.Proofs.ReservedNames
import SchemaCatalog.Proofs.Resolution
import SchemaCatalog.Proofs.Respelling
import SchemaCatalog.Proofs.RoundTrips
import SchemaCatalog.Proofs.SchemaCalls
import SchemaCatalog.Proofs.SchemaDrop
import SchemaCatalog.Proofs.SchemaLives
import SchemaCatalog.Proofs.SchemaOwners
import SchemaCatalog.Proofs.SchemaRuns
import SchemaCatalog.Proofs.Search
import SchemaCatalog.Proofs.SequenceValues
import SchemaCatalog.Proofs.Shrinking
import SchemaCatalog.Proofs.StableColumns
import SchemaCatalog.Proofs.StatementSteps
import SchemaCatalog.Proofs.Steps
import SchemaCatalog.Proofs.TableRemoval
import SchemaCatalog.Proofs.Teardown
import SchemaCatalog.Proofs.TempRemoval
import SchemaCatalog.Proofs.TempTableRemoval
import SchemaCatalog.Proofs.Toposort
import SchemaCatalog.Proofs.Turns
import SchemaCatalog.Proofs.TwoRuns.Basic
import SchemaCatalog.Proofs.TwoRuns.Catalog
import SchemaCatalog.Proofs.TwoRuns.Execution
import SchemaCatalog.Proofs.TwoRuns.SchemaDrop
import SchemaCatalog.Proofs.UnnamedIndexes
import SchemaCatalog.Proofs.WellFormed
import SchemaCatalog.Registry
import SchemaCatalog.Reservation
import SchemaCatalog.Schema.Basic
import SchemaCatalog.Schema.Lookup
import SchemaCatalog.Schema.Update
import SchemaCatalog.Session.Basic
import SchemaCatalog.Session.Open
import SchemaCatalog.SortedMap
import SchemaCatalog.Statement.Basic
import SchemaCatalog.Statement.Data
import SchemaCatalog.Store
import SchemaCatalog.Table
import SchemaCatalog.Teardown.Graph
import SchemaCatalog.Teardown.Order
import SchemaCatalog.Teardown.Removal
import SchemaCatalog.Text.Graphic
import SchemaCatalog.Text.Uppercase
