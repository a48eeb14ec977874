import ValueEngine.Action
import ValueEngine.Config
import ValueEngine.Engine.Access
import ValueEngine.Engine.Call
import ValueEngine.Engine.Comparison
import ValueEngine.Engine.Construction
import ValueEngine.Engine.Descriptor
import ValueEngine.Engine.Elements
import ValueEngine.Engine.External
import ValueEngine.Engine.Lookup
import ValueEngine.Engine.Object
import ValueEngine.Engine.Printing
import ValueEngine.Engine.Prototype
import ValueEngine.Engine.Reference
import ValueEngine.Engine.State
import ValueEngine.Fault
import ValueEngine.Growable.Basic
import ValueEngine.Growable.Callback
import ValueEngine.Growable.Description
import ValueEngine.Growable.Edit
import ValueEngine.Growable.Element
import ValueEngine.Growable.Function
import ValueEngine.Growable.Kind
import ValueEngine.Growable.Position
import ValueEngine.Growable.Search
import ValueEngine.Growable.Sort
import ValueEngine.Growable.Store
import ValueEngine.Growable.Traversal
import ValueEngine.Inspector
import ValueEngine.Json.Document
import ValueEngine.Json.Numeral
import ValueEngine.Json.Term
import ValueEngine.Json.Text
import ValueEngine.Main
import ValueEngine.Number.Binary
import ValueEngine.Number.Buffer
import ValueEngine.Number.Decimal
import ValueEngine.Number.Layout
import ValueEngine.Number.Rounding
import ValueEngine.Number.Shortest
import ValueEngine.Proofs.Growable.Named
import ValueEngine.Proofs.Growable.Plain
import ValueEngine.Proofs.Growable.Refinement
import ValueEngine.Proofs.Number.IntegerPart
import ValueEngine.Proofs.Storage.Cells
import ValueEngine.Property.Basic
import ValueEngine.Property.Table
import ValueEngine.Storage
import ValueEngine.Text.CharSet
import ValueEngine.Text.Cluster
import ValueEngine.Text.Conjunct
import ValueEngine.Text.Erasure
import ValueEngine.Text.Escaped
import ValueEngine.Text.Mark
import ValueEngine.Text.Pictograph
import ValueEngine.Text.Quoted
import ValueEngine.Text.Utf8
import ValueEngine.Text.Word
import ValueEngine.Value.Basic
import ValueEngine.Value.Tag
import ValueEngine.World
import ValueEngine.Proofs.Growable.Runs
import ValueEngine.Proofs.Action
import ValueEngine.Proofs.Growable.Exchange
import ValueEngine.Proofs.Growable.Partition
import ValueEngine.Proofs.Growable.Sorted
import ValueEngine.Proofs.Property.Chains
import ValueEngine.Proofs.Property.WellFormed
import ValueEngine.Proofs.Property.Operations
import ValueEngine.Proofs.Property.FiniteMap
import ValueEngine.Proofs.Engine.Steps
import ValueEngine.Proofs.Property.Lookup
import ValueEngine.Proofs.Engine.Requests
import ValueEngine.Proofs.Engine.Effects
import ValueEngine.Proofs.Engine.Permanence
import ValueEngine.Proofs.Growable.Visits
import ValueEngine.Proofs.Growable.Traversals
import ValueEngine.Proofs.Engine.Soundness
import ValueEngine.Proofs.Engine.Rules
import ValueEngine.Proofs.Engine.Acyclic
import ValueEngine.Proofs.Number.Denotation
import ValueEngine.Proofs.Engine.Search
import ValueEngine.Proofs.Engine.Assignment
import ValueEngine.Proofs.Growable.DeadCells
import ValueEngine.Proofs.Growable.Tasks
import ValueEngine.Proofs.Growable.Moves
import ValueEngine.Proofs.Growable.Retention
import ValueEngine.Proofs.Number.Rank
import ValueEngine.Proofs.Value.Sameness
import ValueEngine.Proofs.Text.Bytes
import ValueEngine.Proofs.Engine.Frozen
import ValueEngine.Proofs.Engine.References
import ValueEngine.Proofs.Engine.Comparison
import ValueEngine.Proofs.Number.Decimal
import ValueEngine.Proofs.Engine.Arrays
import ValueEngine.Proofs.Property.SlotList
import ValueEngine.Proofs.Property.SlotOrder
import ValueEngine.Proofs.Engine.Atomicity
import ValueEngine.Proofs.Engine.Recognition
import ValueEngine.Proofs.Growable.SortSteps
import ValueEngine.Proofs.Growable.SortEffects
import ValueEngine.Proofs.Growable.SortBounds
import ValueEngine.Proofs.Engine.Definition
import ValueEngine.Proofs.Growable.LengthLimit
import ValueEngine.Proofs.Engine.Deletion
import ValueEngine.Proofs.Engine.ElementRoutes
import ValueEngine.Proofs.Engine.ArrayAssignment
import ValueEngine.Proofs.Number.Precision
import ValueEngine.Proofs.Engine.Handles
import ValueEngine.Proofs.Engine.Ancestors
import ValueEngine.Proofs.Engine.Instances
import ValueEngine.Proofs.Growable.Folds
import ValueEngine.Proofs.Growable.CopyWithin
import ValueEngine.Proofs.Growable.Occurrences
import ValueEngine.Proofs.Engine.ElementDefinition
import ValueEngine.Proofs.Engine.Calls
import ValueEngine.Proofs.Engine.Accessors
import ValueEngine.Proofs.Engine.Containers
import ValueEngine.Proofs.Engine.Documents
import ValueEngine.Proofs.Number.Numerals
import ValueEngine.Proofs.Storage.Bounds
import ValueEngine.Proofs.Number.Buffer
import ValueEngine.Proofs.Value.Style
import ValueEngine.Proofs.Engine.Printing
