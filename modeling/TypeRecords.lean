import TypeRecords.CSource.Declaration
import TypeRecords.CSource.Expression
import TypeRecords.CSource.SourceUnit
import TypeRecords.CSource.Type
import TypeRecords.Class.Basic
import TypeRecords.Class.Catalog
import TypeRecords.Class.Dispatch
import TypeRecords.Class.Graph
import TypeRecords.Class.Stored
import TypeRecords.CommandLine.Arguments
import TypeRecords.CommandLine.Report
import TypeRecords.CommandLine.Session
import TypeRecords.Decimal.Shortest
import TypeRecords.Diagnostic
import TypeRecords.Fault
import TypeRecords.File.Path
import TypeRecords.File.Position
import TypeRecords.File.Tree
import TypeRecords.Identifier
import TypeRecords.Layout
import TypeRecords.Main
import TypeRecords.NameHash
import TypeRecords.OrderedMap
import TypeRecords.Proofs.Class.Graph
import TypeRecords.Proofs.Class.Walk
import TypeRecords.Proofs.Outcome
import TypeRecords.Proofs.Record.Answer
import TypeRecords.Proofs.Record.Consistent
import TypeRecords.Proofs.Record.Description
import TypeRecords.Proofs.Record.Encoding
import TypeRecords.Proofs.Record.Generation
import TypeRecords.Proofs.Record.Module
import TypeRecords.Proofs.Schedule
import TypeRecords.Proofs.Segment.Closed
import TypeRecords.Proofs.Segment.Growth
import TypeRecords.QualifiedName
import TypeRecords.Record.Adapter
import TypeRecords.Record.Assembly
import TypeRecords.Record.Error
import TypeRecords.Record.Instance
import TypeRecords.Record.Members
import TypeRecords.Record.Module
import TypeRecords.Record.Reflection
import TypeRecords.Record.Registry
import TypeRecords.Record.Resolved
import TypeRecords.Record.TypeRecord
import TypeRecords.Record.VirtualTable
import TypeRecords.Schedule
import TypeRecords.Segment.Basic
import TypeRecords.Segment.Constant
import TypeRecords.Segment.Listing
import TypeRecords.Segment.Stored
import TypeRecords.Target
import TypeRecords.Target.Host
import TypeRecords.Target.Output
import TypeRecords.Text.Blank
import TypeRecords.Text.Quoted
import TypeRecords.Text.Split
import TypeRecords.Text.Unprintable
import TypeRecords.Text.Utf16
import TypeRecords.Text.Utf8
import TypeRecords.Wire.Binary
import TypeRecords.Wire.Json.Error
import TypeRecords.Wire.Json.Reader
import TypeRecords.Wire.Json.Token
import TypeRecords.Wire.Json.Writer
import TypeRecords.Wire.Storable
import TypeRecords.Wire.Value
import TypeRecords.Proofs.Class.Depth
import TypeRecords.Proofs.Class.EntryOrder
import TypeRecords.Proofs.Record.EntryOrder
import TypeRecords.Proofs.Record.Clash
import TypeRecords.Proofs.Record.Calls
import TypeRecords.Proofs.Record.Adapter
import TypeRecords.Proofs.Record.Content
import TypeRecords.Proofs.Record.Orders
import TypeRecords.Proofs.FirstOccurrence
import TypeRecords.Proofs.Class.Interfaces
import TypeRecords.Proofs.Class.Slots
import TypeRecords.Proofs.Class.Members
import TypeRecords.Proofs.Record.DispatchPaths
import TypeRecords.Proofs.Segment.Requests
import TypeRecords.Proofs.Segment.Strings
import TypeRecords.Proofs.Layout
import TypeRecords.Proofs.Record.Instance
import TypeRecords.Proofs.Record.SharedHash
import TypeRecords.Proofs.Record.Offence
import TypeRecords.Proofs.CSource.StructTable
import TypeRecords.Proofs.CSource.Translation
import TypeRecords.Proofs.CSource.StructTypes
import TypeRecords.Proofs.CSource.Initializer
import TypeRecords.Proofs.CSource.Declarations
import TypeRecords.Proofs.CSource.Identifiers
import TypeRecords.Proofs.Class.Merge
import TypeRecords.Proofs.Class.Identity
import TypeRecords.Proofs.Wire.Binary
import TypeRecords.Proofs.Wire.Json.Catalog
import TypeRecords.Proofs.Class.Closure
import TypeRecords.Proofs.Record.AdapterMethods
import TypeRecords.Proofs.Record.AdapterRecord
import TypeRecords.Proofs.Record.AdapterRefusal
import TypeRecords.Proofs.Record.Lookup
import TypeRecords.Proofs.Record.Reflection
import TypeRecords.Proofs.Class.Defect
import TypeRecords.Proofs.CSource.Grammar
import TypeRecords.Proofs.CSource.Declarators
import TypeRecords.Proofs.CSource.Comments
import TypeRecords.Proofs.Segment.FreshNames
import TypeRecords.Proofs.NameHash
import TypeRecords.Proofs.QualifiedName
