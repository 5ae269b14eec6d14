import SourceScope.Xcoff.Header

set_option autoImplicit false

namespace SourceScope

namespace Xcoff

structure SymbolRecord where
  -- Where its name is: the offset of a name, or a field with the name in it.
  name : Nat ⊕ List UInt8
  value : Nat
  -- None if the symbol is defined in no section.
  home : Option Nat
  storageClass : UInt8
  moreCount : Nat
deriving DecidableEq, Repr

namespace SymbolRecord

def nameOf (field : List UInt8) : Nat ⊕ List UInt8 :=
  if field.head? = some 0 then .inl (ByteOrder.big.value (field.drop 4)) else .inr (fieldText field)

def reader (width : Width) : Reader SymbolRecord := do
  let e := words width
  let (name, value) ←
    match width with
    | .narrow => do
      let field ← Reader.take 8
      let value ← e.size
      pure (nameOf field, value)
    | .wide => do
      let value ← e.size
      let offset ← e.word
      pure (.inl offset, value)
  let number ← e.half
  let _type ← e.half
  let storageClass ← Reader.byte
  let moreCount ← Reader.byte
  return {
    name, value, storageClass
    -- negative numbers, and zero, are no sections
    home := if 0 < number ∧ number < 0x8000 then some number else none
    moreCount := moreCount.toNat }

def byteCount : Nat := 18

def namesControlSection (s : SymbolRecord) : Bool :=
  0 < s.moreCount && [2, 107, 111].contains s.storageClass

end SymbolRecord

structure ControlSection where
  size : Nat
  -- Whether the symbol refers to a section, is one, or is a label or common storage.
  type : Nat
  storage : Nat
deriving DecidableEq, Repr

namespace ControlSection

def ofBytes (width : Width) (bytes : List UInt8) : Option ControlSection :=
  let low := ByteOrder.big.value (bytes.take 4)
  let mark := ByteOrder.big.value ((bytes.drop 10).take 1)
  let storage := ByteOrder.big.value ((bytes.drop 11).take 1)
  match width with
  | .narrow => some ⟨low, mark % 8, storage⟩
  | .wide =>
    let high := ByteOrder.big.value ((bytes.drop 12).take 4)
    -- other records that may stand in its place have another number at the end
    if (bytes.drop 17).take 1 = [0xfb] then some ⟨high * 0x100000000 + low, mark % 8, storage⟩
    else none

def isWhole (c : ControlSection) : Bool := c.type == 1 || c.type == 3

def kind (c : ControlSection) : SymbolKind :=
  if c.isWhole then
    if c.storage ∈ [0, 6] then .code
    else if c.storage ∈ [1, 3, 5, 9, 10, 15, 16] then .data
    else .other
  -- a label is where a function begins
  else if c.type = 2 then .code
  else .other

end ControlSection

structure Symbol where
  record : SymbolRecord
  control : Option ControlSection
deriving DecidableEq, Repr

namespace Symbol

def ofRecords (width : Width) : List (List UInt8) → List Symbol
  | [] => []
  | bytes :: rest =>
    match (SymbolRecord.reader width).read bytes with
    | .error _ => []
    | .ok record =>
      let control :=
        if record.namesControlSection then
          (rest[record.moreCount - 1]?).bind (ControlSection.ofBytes width)
        else none
      ⟨record, control⟩ :: ofRecords width (rest.drop record.moreCount)
termination_by records => records.length
decreasing_by simp only [List.length_drop, List.length_cons]; omega

def name? (strings : List UInt8) (s : Symbol) : Option (List UInt8) :=
  match s.record.name with
  | .inl offset => textAt? strings offset
  | .inr name => some name

def kind (s : Symbol) : SymbolKind := (s.control.map ControlSection.kind).getD .other

def size (s : Symbol) : Nat :=
  match s.control with
  | some control => if control.isWhole then control.size else 0
  | none => 0

def definition (strings : List UInt8) (s : Symbol) : Image.Definition :=
  ⟨s.name? strings, s.kind, ⟨s.record.value, s.record.home⟩, s.size⟩

end Symbol

structure SymbolTable where
  symbols : List Symbol
  strings : List UInt8
deriving Repr

def SymbolTable.read (h : Header) (data : List UInt8) : Except XcoffError SymbolTable := do
  if h.symbolOffset = 0 then return ⟨[], []⟩
  let size := SymbolRecord.byteCount
  let some records := table? data (Reader.take size) size h.symbolOffset h.symbolCount
    | throw .symbolTable
  let some strings := sizedStrings? .big data (h.symbolOffset + size * h.symbolCount)
    | throw .noStrings
  return ⟨Symbol.ofRecords h.width records, strings⟩

end Xcoff

end SourceScope
