import SourceScope.Function.Resolve
import SourceScope.Layout.Naming
import SourceScope.Variable.Update

set_option autoImplicit false

namespace SourceScope

structure LocalVariable where
  variable_ : Variable
  range : CodeRange
  -- The function that declares it.
  function : Option FunctionId
deriving Repr

structure VariableSet where
  globals : List Variable
  locals : List LocalVariable
deriving Repr

namespace VariableSet

def empty : VariableSet := ⟨[], []⟩

def global? (set : VariableSet) (name : String) : Option Variable :=
  set.globals.find? (·.name == name)

def addGlobal (set : VariableSet) (v : Variable) : VariableSet :=
  { set with globals := set.globals ++ [v] }

def addLocals (set : VariableSet) (found : List LocalVariable) : VariableSet :=
  { set with locals := set.locals ++ found }

structure Source where
  index : EntryIndex
  types : TypeTable
  functions : FunctionSet
  ranges : RangeSection
  lists : LocationSection
  maxDepth : Nat

def isScope (entry : Entry) : Bool :=
  entry.tag == Tag.lexicalBlock || entry.tag == Tag.subprogram ||
    entry.tag == Tag.inlinedSubroutine

def outward (index : EntryIndex) (entry : Entry) : List Entry :=
  entry :: index.ancestors entry.offset

def scopeRanges (s : Source) (unit : CompileUnit) (scope : Entry) : List CodeRange :=
  (((outward s.index scope).filter isScope).findSome? fun e =>
    match e.ranges unit.base s.ranges with
    | .ok [] | .error _ => none
    | .ok found => some found).getD []

def functionOf? (s : Source) (scope : Entry) : Option FunctionId :=
  (outward s.index scope).findSome? fun e => s.functions.forEntry? e.offset

def constantValue? : AttrValue → Option UInt32
  | .unsigned n => some n.toUInt32
  | .signed n => some n.toUInt64.toUInt32
  | .block bytes => some (Location.Operation.literalWord bytes)
  | _ => none

structure Facts where
  unit : CompileUnit
  name : String
  type : TypeId
  size : UInt32
  declaring : Option Entry
  scope : Option Entry
  isGlobal : Bool
deriving Repr

def facts? (s : Source) (entry : Entry) : Option Facts := do
  let unit ← s.index.unit? entry.unit
  let origin := s.index.originOf? entry
  let first {α : Type} (read : Entry → Option α) : Option α :=
    match read entry with
    | some a => some a
    | none => origin.bind read
  let name ← first Entry.name?
  let type ← (first Entry.type?).bind s.types.idAt?
  let size := (← s.types.get? type).size
  let scope := (s.index.ancestors entry.offset).find? isScope
  let isExternal := entry.flag Attr.external || origin.any (·.flag Attr.external)
  let linkageDiffers := (first Entry.linkageName?).any (· != name)
  let isConstant := entry.has Attr.constValue
  return {
    unit, name, type, size, scope
    declaring := if entry.has Attr.declarationLine then some entry else origin
    isGlobal := scope.isNone || (!isConstant && (isExternal || linkageDiffers)) }

def variableOf (s : Source) (f : Facts) (place : VariablePlace) : Variable :=
  let v := Variable.make s.types s.maxDepth f.name f.type f.size place
  match f.declaring with
  | none => v
  | some declaring =>
    let (declarationFile, declarationLine) := FunctionSet.declarationIn s.index f.unit declaring
    { v with declarationFile, declarationLine }

def placeOf (s : Source) (unit : CompileUnit) (entry : Entry) : VariablePlace :=
  match entry.attr? Attr.constValue with
  | some value =>
    match constantValue? value with
    | some word => .constant word
    | none => .nowhere "unusable constant value"
  | none =>
    match entry.attr? Attr.location with
    | some (.block bytes) =>
      match Location.Expression.decode bytes with
      | .ok e => .located (.expression e)
      | .error cause => .nowhere cause.message
    | some (.locationList offset) =>
      match s.lists.location offset unit.base with
      | .ok location => .located location
      | .error cause => .nowhere cause.message
    | some _ => .nowhere "unusable location class"
    | none => .nowhere "no location"

def listLocals (s : Source) (f : Facts) (entries : List Location.Entry) : List LocalVariable :=
  let function := f.scope.bind (functionOf? s)
  entries.filterMap fun item =>
    (CodeRange.ofHalfOpen? item.start item.stop).map fun range =>
      ⟨variableOf s f (.located (.expression item.expression)), range, function⟩

def scopeLocals (s : Source) (f : Facts) (place : VariablePlace) (scope : Entry) :
    List LocalVariable :=
  let function := functionOf? s scope
  (scopeRanges s f.unit scope).map fun range => ⟨variableOf s f place, range, function⟩

def addEntry (s : Source) (set : VariableSet) (entry : Entry) : VariableSet :=
  if (entry.tag ≠ Tag.variable_ ∧ entry.tag ≠ Tag.formalParameter) ∨
      entry.flag Attr.declaration then set
  else
    match facts? s entry with
    | none => set
    | some f =>
      let place := placeOf s f.unit entry
      if f.isGlobal then set.addGlobal (variableOf s f place)
      else
        match place, f.scope with
        | .located (.list entries), _ => set.addLocals (listLocals s f entries)
        | place, some scope => set.addLocals (scopeLocals s f place scope)
        | _, none => set

def resolve (s : Source) : VariableSet := s.index.entries.foldl (addEntry s) .empty

end VariableSet

end SourceScope
