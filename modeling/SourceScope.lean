import SourceScope.Binary
import SourceScope.Bytes.Leb128
import SourceScope.Bytes.Order
import SourceScope.Bytes.Reader
import SourceScope.Code.Coverage
import SourceScope.Code.Range
import SourceScope.Code.RangeList
import SourceScope.Coff.Error
import SourceScope.Coff.Header
import SourceScope.Coff.Image
import SourceScope.Coff.Section
import SourceScope.Coff.Symbol
import SourceScope.CommandLine.Arguments
import SourceScope.CommandLine.Report
import SourceScope.CommandLine.Run
import SourceScope.DebugInfo.Abbreviation
import SourceScope.DebugInfo.Form
import SourceScope.DebugInfo.Names
import SourceScope.DebugInfo.Sections
import SourceScope.DebugInfo.Unit
import SourceScope.Elf.Error
import SourceScope.Elf.Header
import SourceScope.Elf.Image
import SourceScope.Elf.Relocation
import SourceScope.Elf.Section
import SourceScope.Elf.Symbol
import SourceScope.Entry.Basic
import SourceScope.Entry.Index
import SourceScope.Entry.Load
import SourceScope.Entry.Ranges
import SourceScope.Error
import SourceScope.File
import SourceScope.Frame.Instruction
import SourceScope.Frame.Section
import SourceScope.Frame.Unwind
import SourceScope.Function.Basic
import SourceScope.Function.Resolve
import SourceScope.Function.Set
import SourceScope.Image.Basic
import SourceScope.Image.Binary
import SourceScope.Image.Format
import SourceScope.Image.Placement
import SourceScope.Image.Read
import SourceScope.Image.Relocation
import SourceScope.Image.Storage
import SourceScope.Image.Table
import SourceScope.Layout.Naming
import SourceScope.Layout.Resolve
import SourceScope.Layout.Table
import SourceScope.Layout.Type
import SourceScope.Line.Extent
import SourceScope.Line.Program
import SourceScope.Listing.Basic
import SourceScope.Listing.Build
import SourceScope.Listing.Stub
import SourceScope.Location.Basic
import SourceScope.Location.Evaluation
import SourceScope.Location.Expression
import SourceScope.Location.Operation
import SourceScope.Location.Section
import SourceScope.MachO.Command
import SourceScope.MachO.Error
import SourceScope.MachO.Image
import SourceScope.Machine.Opcode
import SourceScope.Machine.State
import SourceScope.Main
import SourceScope.Model.Basic
import SourceScope.Model.Build
import SourceScope.Model.Live
import SourceScope.Model.Profile
import SourceScope.Model.Sorted
import SourceScope.Model.Summary
import SourceScope.Order.PartitionPoint
import SourceScope.Path
import SourceScope.Proofs.Bytes.Leb128
import SourceScope.Proofs.Bytes.Reader
import SourceScope.Proofs.Code.Coverage
import SourceScope.Proofs.Code.ListAddresses
import SourceScope.Proofs.Code.ListItems
import SourceScope.Proofs.Code.Range
import SourceScope.Proofs.Code.RangeLists
import SourceScope.Proofs.Entry.Extent
import SourceScope.Proofs.Entry.Forest
import SourceScope.Proofs.Entry.Loaded
import SourceScope.Proofs.Entry.Nesting
import SourceScope.Proofs.Entry.Outward
import SourceScope.Proofs.Frame.Covering
import SourceScope.Proofs.Frame.Encoding
import SourceScope.Proofs.Frame.Remembered
import SourceScope.Proofs.Frame.Sequence
import SourceScope.Proofs.Frame.Unwind
import SourceScope.Proofs.Function.Driver
import SourceScope.Proofs.Function.FrameBase
import SourceScope.Proofs.Function.Innermost
import SourceScope.Proofs.Function.Inserted
import SourceScope.Proofs.Function.Merged
import SourceScope.Proofs.Function.Occurrence
import SourceScope.Proofs.Function.Overlaps
import SourceScope.Proofs.Function.Owner
import SourceScope.Proofs.Function.Rivals
import SourceScope.Proofs.Function.Stubs
import SourceScope.Proofs.Image.Agreement
import SourceScope.Proofs.Image.Relocated
import SourceScope.Proofs.Image.Slot
import SourceScope.Proofs.Layout.Aliases
import SourceScope.Proofs.Layout.ArrayNames
import SourceScope.Proofs.Layout.Arrays
import SourceScope.Proofs.Layout.Candidates
import SourceScope.Proofs.Layout.Closed
import SourceScope.Proofs.Layout.Draft
import SourceScope.Proofs.Layout.Growth
import SourceScope.Proofs.Layout.Members
import SourceScope.Proofs.Layout.Names
import SourceScope.Proofs.Layout.Settled
import SourceScope.Proofs.Line.Extent
import SourceScope.Proofs.Line.Sequence
import SourceScope.Proofs.Listing.Consistent
import SourceScope.Proofs.Listing.Lookup
import SourceScope.Proofs.Listing.Opcodes
import SourceScope.Proofs.Listing.Orphans
import SourceScope.Proofs.Listing.Rows
import SourceScope.Proofs.Listing.Sound
import SourceScope.Proofs.Listing.Steps
import SourceScope.Proofs.Listing.Texts
import SourceScope.Proofs.Location.Arithmetic
import SourceScope.Proofs.Location.ByteOrder
import SourceScope.Proofs.Location.Bytewise
import SourceScope.Proofs.Location.Errors
import SourceScope.Proofs.Location.Forward
import SourceScope.Proofs.Location.Lists
import SourceScope.Proofs.Location.Segments
import SourceScope.Proofs.Location.Spelling
import SourceScope.Proofs.Location.Sweep
import SourceScope.Proofs.Machine.Tiling
import SourceScope.Proofs.Model.Build
import SourceScope.Proofs.Model.Counters
import SourceScope.Proofs.Model.FilePaths
import SourceScope.Proofs.Model.FrameBase
import SourceScope.Proofs.Model.InScope
import SourceScope.Proofs.Model.ListLocals
import SourceScope.Proofs.Model.Opcodes
import SourceScope.Proofs.Model.Owner
import SourceScope.Proofs.Model.Rows
import SourceScope.Proofs.Model.Scope
import SourceScope.Proofs.Model.Shadowing
import SourceScope.Proofs.Model.Shares
import SourceScope.Proofs.Model.Sorted
import SourceScope.Proofs.Model.Stubs
import SourceScope.Proofs.Model.Texts
import SourceScope.Proofs.Model.Unreadable
import SourceScope.Proofs.Model.Updates
import SourceScope.Proofs.Order.PartitionPoint
import SourceScope.Proofs.Order.Sorted
import SourceScope.Proofs.Outcome
import SourceScope.Proofs.Path.Shortened
import SourceScope.Proofs.Sample
import SourceScope.Proofs.Variable.ConstantMember
import SourceScope.Proofs.Variable.Declared
import SourceScope.Proofs.Variable.Descent
import SourceScope.Proofs.Variable.Elements
import SourceScope.Proofs.Variable.Failure
import SourceScope.Proofs.Variable.Fresh
import SourceScope.Proofs.Variable.Kinds
import SourceScope.Proofs.Variable.Located
import SourceScope.Proofs.Variable.Part
import SourceScope.Proofs.Variable.Target
import SourceScope.Proofs.Variable.Unfolding
import SourceScope.Proofs.Variable.Width
import SourceScope.Settings
import SourceScope.Symbol.CratePath.Cursor
import SourceScope.Symbol.CratePath.Text
import SourceScope.Symbol.Hashed
import SourceScope.Symbol.Itanium.Expression
import SourceScope.Symbol.Itanium.Grammar
import SourceScope.Symbol.Itanium.Mangled
import SourceScope.Symbol.Itanium.Name
import SourceScope.Symbol.Itanium.Node
import SourceScope.Symbol.Itanium.Parser
import SourceScope.Symbol.Itanium.Text
import SourceScope.Symbol.Itanium.Type
import SourceScope.Symbol.Itanium.Writer
import SourceScope.Symbol.Punycode
import SourceScope.Symbol.Readable
import SourceScope.Text.Binary32
import SourceScope.Text.Hex
import SourceScope.Text.Hidden
import SourceScope.Text.Quoted
import SourceScope.Text.Utf8
import SourceScope.Toml.Document
import SourceScope.Toml.Quoted
import SourceScope.Toml.Scalar
import SourceScope.Toml.Value
import SourceScope.Variable.Basic
import SourceScope.Variable.Resolve
import SourceScope.Variable.Update
import SourceScope.Xcoff.Error
import SourceScope.Xcoff.Header
import SourceScope.Xcoff.Image
import SourceScope.Xcoff.Symbol
