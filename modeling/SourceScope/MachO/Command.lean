import SourceScope.Image.Table
import SourceScope.MachO.Error

set_option autoImplicit false

namespace SourceScope

namespace MachO

structure Command where
  kind : Nat
  -- The whole command.
  bytes : List UInt8
deriving DecidableEq, Repr

namespace Command

def symbols : Nat := 2

def segment : Width → Nat | .narrow => 1 | .wide => 0x19

def start (e : WordFormat) : Reader (Nat × Nat) := do
  let kind ← e.word
  let size ← e.word
  return (kind, size)

def ofBytes (e : WordFormat) : (count : Nat) → List UInt8 → List Command
  | 0, _ => []
  | count + 1, bytes =>
    match (start e).read bytes with
    | .error _ => []
    | .ok (kind, size) =>
      if size < 8 then []
      else
        match slice? bytes 0 size with
        | none => []
        | some command => ⟨kind, command⟩ :: ofBytes e count (bytes.drop size)

end Command

structure SectionHeader where
  name : List UInt8
  segment : List UInt8
  address : Nat
  size : Nat
  offset : Nat
  -- The kind of contents, in the low byte.
  flags : Nat
deriving DecidableEq, Repr

namespace SectionHeader

def reader (e : WordFormat) : Reader SectionHeader := do
  let name ← Reader.take 16
  let segment ← Reader.take 16
  let address ← e.size
  let size ← e.size
  let offset ← e.word
  let _align ← e.word
  let _relocations ← e.word
  let _relocationCount ← e.word
  let flags ← e.word
  let _reserved ← Reader.take (match e.width with | .narrow => 8 | .wide => 12)
  return ⟨fieldText name, fieldText segment, address, size, offset, flags⟩

def byteCount : Width → Nat | .narrow => 68 | .wide => 80

end SectionHeader

structure SymbolRecord where
  -- Offset of its name in the table of strings.
  name : Nat
  type : UInt8
  -- Zero if it is in no section.
  home : Nat
  value : Nat
deriving DecidableEq, Repr

namespace SymbolRecord

def reader (e : WordFormat) : Reader SymbolRecord := do
  let name ← e.word
  let type ← Reader.byte
  let home ← Reader.byte
  let _description ← e.half
  let value ← e.size
  return ⟨name, type, home.toNat, value⟩

def byteCount : Width → Nat | .narrow => 12 | .wide => 16

def isForDebuggers (s : SymbolRecord) : Bool := s.type &&& 0xe0 != 0

def home? (s : SymbolRecord) : Option Nat :=
  if s.type &&& 0x0e = 0x0e ∧ s.home ≠ 0 then some s.home else none

end SymbolRecord

structure Tables where
  sections : List SectionHeader
  symbols : List SymbolRecord
  strings : List UInt8
deriving Repr

namespace Tables

def empty : Tables := ⟨[], [], []⟩

def segmentBytes : Width → Nat | .narrow => 56 | .wide => 72

def addSegment (e : WordFormat) (tables : Tables) (command : List UInt8) :
    Except MachOError Tables := do
  let size := segmentBytes e.width
  let some segment := slice? command 0 size | throw .commandSize
  let count := e.order.value ((segment.drop (size - 8)).take 4)
  let some headers :=
      table? command (SectionHeader.reader e) (SectionHeader.byteCount e.width) size count
    | throw .sectionCount
  return { tables with sections := tables.sections ++ headers }

def symbolPlace (e : WordFormat) : Reader (Nat × Nat × Nat × Nat) := do
  let symbolOffset ← e.word
  let symbolCount ← e.word
  let stringOffset ← e.word
  let stringSize ← e.word
  return (symbolOffset, symbolCount, stringOffset, stringSize)

def setSymbols (e : WordFormat) (data : List UInt8) (tables : Tables) (command : List UInt8) :
    Except MachOError Tables := do
  let some (symbolOffset, symbolCount, stringOffset, stringSize) :=
      record? command (symbolPlace e) 16 8
    | throw .commandSize
  let some symbols :=
      table? data (SymbolRecord.reader e) (SymbolRecord.byteCount e.width) symbolOffset symbolCount
    | throw .symbolTable
  return { tables with symbols, strings := (slice? data stringOffset stringSize).getD [] }

def step (e : WordFormat) (data : List UInt8) (tables : Tables) (command : Command) :
    Except MachOError Tables :=
  if command.kind = Command.segment e.width then tables.addSegment e command.bytes
  else if command.kind = Command.symbols then tables.setSymbols e data command.bytes
  else .ok tables

def ofCommands (e : WordFormat) (data : List UInt8) (commands : List Command) :
    Except MachOError Tables :=
  commands.foldlM (step e data) empty

end Tables

end MachO

end SourceScope
