import SourceScope.Elf.Section
import SourceScope.Image.Basic

set_option autoImplicit false

namespace SourceScope

namespace Elf

structure SymbolRecord where
  -- Offset in the table of names.
  name : Nat
  value : Nat
  size : Nat
  -- Type of what it names, in the low four bits.
  info : Nat
  sectionIndex : Nat
deriving DecidableEq, Repr

namespace SymbolRecord

def reader (e : WordFormat) : Reader SymbolRecord :=
  match e.width with
  | .narrow => do
    let name ← e.word
    let value ← e.size
    let size ← e.size
    let info ← Reader.byte
    let _visibility ← Reader.byte
    let sectionIndex ← e.half
    return ⟨name, value, size, info.toNat, sectionIndex⟩
  | .wide => do
    let name ← e.word
    let info ← Reader.byte
    let _visibility ← Reader.byte
    let sectionIndex ← e.half
    let value ← e.size
    let size ← e.size
    return ⟨name, value, size, info.toNat, sectionIndex⟩

def kind (s : SymbolRecord) : SymbolKind :=
  match s.info % 16 with
  | 1 | 5 => .data
  | 2 | 10 => .code
  | _ => .other

end SymbolRecord

structure SymbolTable where
  -- Index of its section, zero if there is no table.
  sectionIndex : Nat
  records : List SymbolRecord
  -- Text that names are offsets in.
  names : List UInt8
  -- Section indices of symbols, for those that are too large for a record.
  wideIndices : List Nat
deriving Repr

namespace SymbolTable

def empty : SymbolTable := ⟨0, [], [], []⟩

def namesOf (data : List UInt8) (sections : List Section) (link : Nat) :
    Except ElfError (List UInt8) := do
  if link = 0 then return []
  let some names := sectionAt? sections link | throw .symbolNames
  if names.header.type ≠ SectionType.strings then throw .symbolNamesType
  return (slice? data names.header.offset names.header.size).getD []

def wideIndicesOf (e : WordFormat) (data : List UInt8) (index : Nat) (sections : List Section) :
    Except ElfError (List Nat) :=
  let own := sections.filter fun s =>
    s.header.type == SectionType.sectionIndices && s.header.link == index
  own.foldlM (fun _ s =>
    match s.header.records? data e.word 4 with
    | some found => .ok found
    | none => .error .sectionIndexTable) []

def read (e : WordFormat) (data : List UInt8) (sections : List Section) (type : Nat) :
    Except ElfError SymbolTable := do
  let numbered := (sections.mapIdx fun i s => (i, s)).drop 1
  let some (index, s) := numbered.find? fun (_, s) => s.header.type == type | return .empty
  let some records := s.header.records? data (SymbolRecord.reader e) (symbolBytes e.width)
    | throw .symbolTable
  let names ← namesOf data sections s.header.link
  let wideIndices ← wideIndicesOf e data index (sections.drop 1)
  return ⟨index, records, names, wideIndices⟩

def symbol? (table : SymbolTable) (index : Nat) : Option SymbolRecord :=
  if index = 0 then none else table.records[index]?

def symbols (table : SymbolTable) : List (Nat × SymbolRecord) :=
  (table.records.mapIdx fun i s => (i, s)).drop 1

def name? (table : SymbolTable) (s : SymbolRecord) : Option (List UInt8) := textAt? table.names s.name

def sectionIndex? (table : SymbolTable) (index : Nat) (s : SymbolRecord) : Option Nat :=
  if s.sectionIndex = 0xffff then table.wideIndices[index]?
  else if 0 < s.sectionIndex ∧ s.sectionIndex < 0xff00 then some s.sectionIndex
  else none

def position (table : SymbolTable) (index : Nat) (s : SymbolRecord) : Position :=
  ⟨s.value, table.sectionIndex? index s⟩

def definition (table : SymbolTable) (index : Nat) (s : SymbolRecord) : Image.Definition :=
  ⟨table.name? s, s.kind, table.position index s, s.size⟩

end SymbolTable

end Elf

end SourceScope
