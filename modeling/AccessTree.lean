import AccessTree.Binary64.Basic
import AccessTree.Binary64.Places
import AccessTree.Binary64.Shortest
import AccessTree.Block.Basic
import AccessTree.Block.Growth
import AccessTree.Block.Invariant
import AccessTree.Block.Limit
import AccessTree.Block.Path
import AccessTree.Block.Wire
import AccessTree.Catalog
import AccessTree.Chain
import AccessTree.Command.Options
import AccessTree.Command.Run
import AccessTree.Comparator
import AccessTree.Compile.Leaf
import AccessTree.Compile.Outcome
import AccessTree.Compile.Tree
import AccessTree.Condition.Basic
import AccessTree.Condition.Document
import AccessTree.Condition.Validation
import AccessTree.Digest.Sha256
import AccessTree.Edit.Basic
import AccessTree.Edit.Fault
import AccessTree.Edit.History
import AccessTree.Json.Basic
import AccessTree.Json.Canonical
import AccessTree.Json.Nesting
import AccessTree.Json.Printer
import AccessTree.Json.Reader
import AccessTree.Json.Shown
import AccessTree.Literal
import AccessTree.Log.Record
import AccessTree.Log.Template
import AccessTree.Log.Timestamp
import AccessTree.Main
import AccessTree.Problem
import AccessTree.Proofs.Binary64.Rounding
import AccessTree.Proofs.Binary64.Shortest
import AccessTree.Proofs.Block.Accepted
import AccessTree.Proofs.Block.Address
import AccessTree.Proofs.Block.Bare
import AccessTree.Proofs.Block.Graft
import AccessTree.Proofs.Block.Growth
import AccessTree.Proofs.Block.Limit
import AccessTree.Proofs.Block.Overwrite
import AccessTree.Proofs.Block.Path
import AccessTree.Proofs.Block.Place
import AccessTree.Proofs.Block.Walk
import AccessTree.Proofs.Block.WellFormed
import AccessTree.Proofs.Block.Wire
import AccessTree.Proofs.Chain
import AccessTree.Proofs.Compile.Call
import AccessTree.Proofs.Compile.Chain
import AccessTree.Proofs.Compile.Entered
import AccessTree.Proofs.Compile.Erased
import AccessTree.Proofs.Compile.Faults
import AccessTree.Proofs.Compile.Formed
import AccessTree.Proofs.Compile.Gist
import AccessTree.Proofs.Compile.Kept
import AccessTree.Proofs.Compile.Leaf
import AccessTree.Proofs.Compile.Lenient
import AccessTree.Proofs.Compile.Operators
import AccessTree.Proofs.Compile.Outcome
import AccessTree.Proofs.Compile.Relisted
import AccessTree.Proofs.Compile.Renamed
import AccessTree.Proofs.Compile.Strict
import AccessTree.Proofs.Compile.Supplied
import AccessTree.Proofs.Condition.Breakdown
import AccessTree.Proofs.Condition.Declared
import AccessTree.Proofs.Condition.Displayed
import AccessTree.Proofs.Condition.Formed
import AccessTree.Proofs.Condition.Grammar
import AccessTree.Proofs.Condition.Nodes
import AccessTree.Proofs.Condition.Parsed
import AccessTree.Proofs.Condition.Position
import AccessTree.Proofs.Condition.Read
import AccessTree.Proofs.Condition.Valid
import AccessTree.Proofs.Condition.Written
import AccessTree.Proofs.Edit.Accepted
import AccessTree.Proofs.Edit.Assembled
import AccessTree.Proofs.Edit.Batch
import AccessTree.Proofs.Edit.Cases
import AccessTree.Proofs.Edit.Meaning
import AccessTree.Proofs.Edit.Operands
import AccessTree.Proofs.Edit.Orderly
import AccessTree.Proofs.Edit.Parameters
import AccessTree.Proofs.Edit.Regrowth
import AccessTree.Proofs.Edit.Regular
import AccessTree.Proofs.Edit.Splice
import AccessTree.Proofs.Edit.Storable
import AccessTree.Proofs.Edit.WellFormed
import AccessTree.Proofs.Except
import AccessTree.Proofs.Json.Canonical
import AccessTree.Proofs.Json.Faults
import AccessTree.Proofs.Json.Fields
import AccessTree.Proofs.Json.Layout
import AccessTree.Proofs.Json.Numbers
import AccessTree.Proofs.Json.Reordered
import AccessTree.Proofs.Json.Strings
import AccessTree.Proofs.Json.Walk
import AccessTree.Proofs.Redaction
import AccessTree.Proofs.Schema.Checked
import AccessTree.Proofs.Service.Edited
import AccessTree.Proofs.Text.Numeral
import AccessTree.Proofs.Text.Search
import AccessTree.Proofs.Word
import AccessTree.Redaction
import AccessTree.Schema.Checked
import AccessTree.Schema.Field
import AccessTree.Schema.Issue
import AccessTree.Service.Endpoint
import AccessTree.Service.Exchange
import AccessTree.Service.Form
import AccessTree.Service.Metrics
import AccessTree.Service.Target
import AccessTree.Settings
import AccessTree.Text.Alphanumeric
import AccessTree.Text.Blank
import AccessTree.Text.Case
import AccessTree.Text.CharSet
import AccessTree.Text.Digit
import AccessTree.Text.Encoding
import AccessTree.Text.Newline
import AccessTree.Text.Numeral
import AccessTree.Text.Printable
import AccessTree.Text.Quoted
import AccessTree.Text.Search
import AccessTree.Text.Utf8
import AccessTree.Word
import AccessTree.Workspace
