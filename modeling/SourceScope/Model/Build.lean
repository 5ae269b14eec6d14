import SourceScope.Entry.Load
import SourceScope.Error
import SourceScope.Layout.Naming
import SourceScope.Listing.Build
import SourceScope.Model.Basic

set_option autoImplicit false

namespace SourceScope

namespace SourceModel

def inContext {α : Type} (context : String) (result : Except ModelError α) : Except ModelError α :=
  result.mapError (.inContext context)

def frameOf (binary : Binary) : Except ModelError (Option FrameSection) :=
  match binary.section? ".debug_frame" with
  | none => .ok none
  | some data =>
    match FrameSection.parse binary.order data with
    | .ok table => .ok (some table)
    | .error cause => .error (.malformedFrame cause)

def driverLineOf (listing : Listing) (driver : FunctionId) : Option LineId :=
  listing.lines.findIdx? fun line => line.isStub && line.function == driver

def ofIndex (settings : Settings) (files : FileSystem) (disassemble : Disassembler)
    (binary : Binary) (index : EntryIndex) (frame : Option FrameSection) : SourceModel :=
  let ranges : RangeSection := ⟨binary.order, binary.debugSections.data ".debug_ranges"⟩
  let lists : LocationSection := ⟨binary.order, binary.debugSections.data ".debug_loc"⟩
  let types := TypeTable.resolve settings index
  let described := FunctionSet.resolve index ranges lists
  let variableSet := VariableSet.resolve
    ⟨index, types, described, ranges, lists, settings.maxChildDepth.toNat⟩
  let opcodes := Listing.opcodes disassemble binary.code
  let symbols := binary.functionSymbols
  let (driver, functions) :=
    (described.withSymbolStubs settings.minLineBytes symbols).withDriver settings.driverName opcodes
  let listing := Listing.build settings files index symbols functions driver opcodes
  { settings, types, functions, driver, variableSet, frame, listing
    units := index.units.length
    functionCounters := Array.replicate functions.size .zero
    driverLine := driverLineOf listing driver
    activeLocals := [] }

def build (settings : Settings) (files : FileSystem) (disassemble : Disassembler)
    (binary : Binary) : Except ModelError SourceModel := do
  if let some problem := settings.check then throw (.settings problem.message)
  let index ← inContext "Failed to index debug info" (EntryIndex.load binary.debugSections)
  let frame ← inContext "Failed to parse .debug_frame" (frameOf binary)
  return ofIndex settings files disassemble binary index frame

end SourceModel

end SourceScope
