import SourceScope.Image.Basic
import SourceScope.MachO.Command

set_option autoImplicit false

namespace SourceScope

namespace MachO

structure Header where
  words : WordFormat
  type : Nat
  commandCount : Nat
  commandBytes : Nat
deriving Repr

namespace Header

def reader (e : WordFormat) : Reader Header := do
  let _magic ← e.word
  let _machine ← Reader.take 8
  let type ← e.word
  let commandCount ← e.word
  let commandBytes ← e.word
  return ⟨e, type, commandCount, commandBytes⟩

def byteCount : Width → Nat | .narrow => 28 | .wide => 32

def isRelocatable (h : Header) : Bool := h.type == 1

def commands (h : Header) (data : List UInt8) : List Command :=
  match slice? data (byteCount h.words.width) h.commandBytes with
  | none => []
  | some bytes => Command.ofBytes h.words h.commandCount bytes

end Header

namespace SectionHeader

def isNamed (segment name : String) (h : SectionHeader) : Bool :=
  h.segment == segment.toUTF8.toList && h.name == name.toUTF8.toList

def isCode (h : SectionHeader) : Bool := h.isNamed "__TEXT" "__text"

def dataNames : List (String × String) := [
  ("__TEXT", "__const"), ("__TEXT", "__cstring"), ("__TEXT", "__literal4"),
  ("__TEXT", "__literal8"), ("__TEXT", "__literal16"), ("__TEXT", "__eh_frame"),
  ("__TEXT", "__gcc_except_tab"), ("__DATA", "__data"), ("__DATA", "__const"), ("__DATA", "__bss"),
  ("__DATA", "__common")]

def symbolKind (h : SectionHeader) : SymbolKind :=
  if h.isCode then .code
  else if dataNames.any fun (segment, name) => h.isNamed segment name then .data
  else .other

def place? (h : SectionHeader) : Option (Nat × Nat) :=
  if h.flags % 256 ∈ [0x01, 0x0c, 0x12] then none else some (h.offset, h.size)

def isTagged (h : SectionHeader) : Bool :=
  (Utf8.strict h.name).any fun name => name.startsWith "__zdebug_"

def storage (data : List UInt8) (h : SectionHeader) : Storage :=
  if h.isTagged then .tagged data h.place?
  else
    match h.place? with
    | none => .absent
    | some (offset, size) => .place offset size .outsideFile

def toSection (data : List UInt8) (h : SectionHeader) : Image.Section where
  name := some h.name
  address := h.address
  isCode := h.isCode
  storage := h.storage data
  relocations := []

end SectionHeader

def definition (tables : Tables) (s : SymbolRecord) : Image.Definition where
  name := textAt? tables.strings s.name
  kind := ((s.home?.bind fun number => tables.sections[number - 1]?).map
    SectionHeader.symbolKind).getD .other
  position := ⟨s.value, s.home?⟩
  size := 0

def toImage (h : Header) (tables : Tables) (data : List UInt8) : Image where
  width := h.words.width
  order := h.words.order
  isRelocatable := h.isRelocatable
  naming := .underscored
  sections := tables.sections.map (SectionHeader.toSection data)
  definitions := (tables.symbols.filter (!·.isForDebuggers)).map (definition tables)
  data := data

def read (e : WordFormat) (data : List UInt8) : Except MachOError Image := do
  let some h := record? data (Header.reader e) (Header.byteCount e.width) 0 | throw .header
  let tables ← Tables.ofCommands e data (h.commands data)
  return toImage h tables data

end MachO

end SourceScope
