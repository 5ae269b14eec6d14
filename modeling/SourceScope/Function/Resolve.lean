import SourceScope.Entry.Index
import SourceScope.Entry.Ranges
import SourceScope.Function.Set
import SourceScope.Location.Section

set_option autoImplicit false

namespace SourceScope

namespace FunctionSet

def lineage (index : EntryIndex) (entry : Entry) : List Entry :=
  match index.originOf? entry with
  | none => [entry]
  | some origin =>
    match index.originOf? origin with
    | none => [entry, origin]
    | some further => [entry, origin, further]

def nameOf? (index : EntryIndex) (entry : Entry) : Option String :=
  let found := lineage index entry
  match found.findSome? Entry.name? with
  | some name => some name
  | none => found.findSome? Entry.linkageName?

def declarationIn (index : EntryIndex) (unit : CompileUnit) (declaring : Entry) :
    Option String × Option UInt32 :=
  let unit := (index.unit? declaring.unit).getD unit
  let file := (declaring.natural? Attr.declarationFile).bind fun i => unit.file? i.toNat
  (file, (declaring.natural? Attr.declarationLine).map UInt64.toUInt32)

def declarationOf (index : EntryIndex) (unit : CompileUnit) (entry : Entry) :
    Option String × Option UInt32 :=
  match (lineage index entry).find? (·.has Attr.declarationLine) with
  | none => (none, none)
  | some declaring => declarationIn index unit declaring

def frameBaseOf? (unit : CompileUnit) (lists : LocationSection) (entry : Entry) :
    Option Location :=
  match entry.attr? Attr.frameBase with
  | some (.block bytes) => (Location.Expression.decode bytes).toOption.map .expression
  | some (.locationList offset) => (lists.location offset unit.base).toOption
  | _ => none

def ofEntry? (index : EntryIndex) (ranges : RangeSection) (lists : LocationSection)
    (entry : Entry) : Option SourceFunction := do
  let inlined := entry.tag == Tag.inlinedSubroutine
  if entry.tag ≠ Tag.subprogram ∧ !inlined then none
  let unit ← index.unit? entry.unit
  let code ← (entry.ranges unit.base ranges).toOption
  if code.isEmpty then none
  let name ← nameOf? index entry
  let framed :=
    if inlined then (index.ancestors entry.offset).find? (·.tag == Tag.subprogram) else some entry
  let (declarationFile, declarationLine) := declarationOf index unit entry
  return {
    name, declarationFile, declarationLine
    ranges := if inlined then code.map (·.markInlined) else code
    frameBase := framed.bind (frameBaseOf? unit lists)
    instances := []
    isStub := false }

def addEntry (index : EntryIndex) (ranges : RangeSection) (lists : LocationSection)
    (set : FunctionSet) (entry : Entry) : FunctionSet :=
  match ofEntry? index ranges lists entry with
  | none => set
  | some f =>
    let (id, set) := set.insert f
    set.noteEntry entry.offset id

def resolve (index : EntryIndex) (ranges : RangeSection) (lists : LocationSection) : FunctionSet :=
  index.entries.foldl (addEntry index ranges lists) .empty

end FunctionSet

end SourceScope
