import SourceScope.Entry.Index
import SourceScope.Layout.Table

set_option autoImplicit false

namespace SourceScope

namespace TypeTable

def pointerSize : UInt32 := 4

def hasPart (part : List Char) : List Char → Bool
  | [] => part.isEmpty
  | c :: rest => part.isPrefixOf (c :: rest) || hasPart part rest

def namesFloat (settings : Settings) (name : String) : Bool :=
  settings.floatNames && hasPart "float".toList name.toList

def signedEncodings : List UInt64 := [5, 6]

def floatEncoding : UInt64 := 4

def baseType? (settings : Settings) (entry : Entry) : Option SourceType := do
  let name ←
    match entry.name? with
    | some name => some name
    | none =>
      if entry.tag = Tag.enumerationType then some ("anon_enum_" ++ Hex.text entry.offset)
      else none
  let size ← entry.byteSize?
  let encoding := entry.natural? Attr.encoding
  return { SourceType.plain name size .base entry.offset with
    isSigned := encoding.any signedEncodings.contains
    isFloat := encoding == some floatEncoding || namesFloat settings name }

def withBaseTypes (settings : Settings) (entries : List Entry) (table : TypeTable) : TypeTable :=
  entries.foldl (fun table entry =>
    if entry.tag = Tag.baseType ∨ entry.tag = Tag.enumerationType then
      match baseType? settings entry with
      | some type => table.define entry.offset type
      | none => table
    else table) table

def isCompositeTag (tag : Nat) : Bool := tag == Tag.structureType || tag == Tag.unionType

/-- Member entries with the structure or union that they belong to: the latest one before them
with nothing but members in between. -/
def memberOwners : Option Nat → List Entry → List (Nat × Entry)
  | _, [] => []
  | owner, entry :: rest =>
    if isCompositeTag entry.tag then memberOwners (some entry.offset) rest
    else if entry.tag = Tag.member then
      match owner with
      | some offset => (offset, entry) :: memberOwners owner rest
      | none => memberOwners owner rest
    else memberOwners none rest

def membersOf (owners : List (Nat × Entry)) (offset : Nat) : List Entry :=
  (owners.filter (·.1 == offset)).map (·.2)

def typedefType? (settings : Settings) (table : TypeTable) (entry : Entry) : Option SourceType := do
  let name ← entry.name?
  let target ← table.at? (← entry.type?)
  return { target with
    name, offset := entry.offset, isFloat := target.isFloat || namesFloat settings name }

def pointerType (table : TypeTable) (entry : Entry) : SourceType × TypeTable :=
  let size := entry.byteSize?.getD pointerSize
  match entry.type? with
  | none => (.plain "void *" size (.pointer none) entry.offset, table)
  | some offset =>
    let (target, table) := table.allocate offset
    (.plain "void *" size (.pointer (some target)) entry.offset, table)

def qualifiedType? (table : TypeTable) (entry : Entry) : Option SourceType := do
  let target ← table.at? (← entry.type?)
  return if entry.tag = Tag.constType then
    { target with offset := entry.offset, isConst := true, name := "const " ++ target.name }
  else
    { target with offset := entry.offset, isVolatile := true, name := "volatile " ++ target.name }

def saturatingMul (a b : UInt32) : UInt32 :=
  if a.toNat * b.toNat < UInt32.size then a * b else 0xffffffff

def subrangeCount (entry : Entry) : UInt32 :=
  match entry.natural? Attr.count with
  | some n => n.toUInt32
  | none =>
    match (entry.attr? Attr.upperBound).bind AttrValue.integer? with
    | some upper => UInt32.ofInt (max ((upper + 1).toInt) 0)
    | none => 0

def subranges (index : EntryIndex) (entry : Entry) : List UInt32 :=
  (((index.children entry.offset).filterMap index.entry?).filter (·.tag == Tag.subrangeType)).map
    subrangeCount

def dimensionText (counts : List UInt32) : String :=
  match counts with
  | [] => "[]"
  | _ => String.join (counts.map fun n => s!"[{n}]")

def elementCount (counts : List UInt32) : UInt32 :=
  match counts with
  | [] => 0
  | _ => counts.foldl saturatingMul 1

def arrayType? (index : EntryIndex) (table : TypeTable) (entry : Entry) : Option SourceType := do
  let element ← table.idAt? (← entry.type?)
  let type ← table.get? element
  let counts := subranges index entry
  let count := elementCount counts
  return .plain (type.name ++ dimensionText counts) (saturatingMul type.size count)
    (.array element count) entry.offset

def memberPlace? (entry : Entry) : Option MemberPlace :=
  match entry.attr? Attr.dataMemberLocation with
  | some (.block bytes) =>
    match Location.Expression.decode bytes with
    | .ok e =>
      match e.memberOffset? with
      | some offset => some (.offset offset)
      | none => some (.expression e)
    | .error _ => none
  | some value => some (.offset (value.natural?.getD 0).toUInt32)
  | none => some (.offset 0)

def member? (table : TypeTable) (entry : Entry) : Option Member := do
  let type ← table.idAt? (← entry.type?)
  let place ← memberPlace? entry
  return ⟨entry.name?.getD ("anon_" ++ Hex.text entry.offset), type, place⟩

/-- A structure or union needs all of its members, and in the last pass at least one. -/
def compositeType? (settings : Settings) (owners : List (Nat × Entry)) (table : TypeTable)
    (last : Bool) (entry : Entry) : Option SourceType :=
  let candidates := membersOf owners entry.offset
  let members := candidates.filterMap (member? table)
  if members.isEmpty || (members.length < candidates.length && !last) then none
  else
    let isUnion := entry.tag == Tag.unionType
    let anonymous := if isUnion then "anon_union_" else "anon_struct_"
    let name := entry.name?.getD (anonymous ++ Hex.text entry.offset)
    some { SourceType.plain name (entry.byteSize?.getD 0) (.composite isUnion members) entry.offset
      with isFloat := namesFloat settings name }

def passEntry (settings : Settings) (index : EntryIndex) (owners : List (Nat × Entry))
    (last : Bool) (table : TypeTable) (entry : Entry) : TypeTable :=
  if (table.at? entry.offset).isSome then table
  else if entry.tag = Tag.pointerType then
    let (type, table) := pointerType table entry
    table.define entry.offset type
  else
    let type :=
      if entry.tag = Tag.typedef then typedefType? settings table entry
      else if isCompositeTag entry.tag then compositeType? settings owners table last entry
      else if entry.tag = Tag.arrayType then arrayType? index table entry
      else if entry.tag = Tag.constType ∨ entry.tag = Tag.volatileType then
        qualifiedType? table entry
      else none
    match type with
    | some type => table.define entry.offset type
    | none => table

def pass (settings : Settings) (index : EntryIndex) (owners : List (Nat × Entry))
    (entries : List Entry) (last : Bool) (table : TypeTable) : TypeTable :=
  entries.foldl (passEntry settings index owners last) table

def passes (settings : Settings) (index : EntryIndex) (owners : List (Nat × Entry))
    (entries : List Entry) : (count : Nat) → TypeTable → TypeTable
  | 0, table => table
  | count + 1, table =>
    passes settings index owners entries count
      (pass settings index owners entries (count == 0) table)

def draft (settings : Settings) (index : EntryIndex) : TypeTable :=
  let entries := index.entries
  passes settings index (memberOwners none entries) entries settings.typePasses.toNat
    (withBaseTypes settings entries .empty)

end TypeTable

end SourceScope
