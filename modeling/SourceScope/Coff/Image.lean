import SourceScope.Coff.Symbol

set_option autoImplicit false

namespace SourceScope

namespace Coff

def sectionTable (h : Header) (data : List UInt8) (offset : Nat) :
    Except CoffError (List SectionHeader) :=
  match table? data SectionHeader.reader SectionHeader.byteCount offset h.sectionCount with
  | some headers => .ok headers
  | none => .error .sectionTable

def definition (table : SymbolTable) (base : Nat) (headers : List SectionHeader) (s : Symbol) :
    Image.Definition :=
  let start := (s.record.home.bind fun number => headers[number - 1]?).map fun h => base + h.address
  { name := s.name? table.strings
    kind := s.kind
    position := ⟨(start.map (· + s.record.value)).getD 0, s.record.home⟩
    size := s.size }

def toImage (width : Width) (isRelocatable : Bool) (base : Nat)
    (storage : SectionHeader → Storage) (h : Header) (headers : List SectionHeader)
    (table : SymbolTable) (data : List UInt8) : Image where
  width := width
  order := h.order
  isRelocatable := isRelocatable
  naming := .plain
  sections := headers.map fun header =>
    { name := sectionName? table.strings header.name
      address := base + header.address
      isCode := header.isCode
      storage := storage header
      relocations := [] }
  definitions := table.symbols.map (definition table base headers)
  data := data

def readTables (h : Header) (data : List UInt8) (offset : Nat) : Except CoffError Image := do
  let headers ← sectionTable h data offset
  let table ← SymbolTable.read h data
  return toImage .narrow true 0 SectionHeader.storage h headers table data

def read (data : List UInt8) : Except CoffError Image :=
  match record? data Header.reader Header.byteCount 0 with
  | none => .error .header
  | some h => readTables h data (Header.byteCount + h.optionalSize)

def readBig (data : List UInt8) : Except CoffError Image :=
  match record? data Header.bigReader Header.bigByteCount 0 with
  | none => .error .bigHeader
  | some h => readTables h data Header.bigByteCount

def readExecutable (offset : Nat) (width : Width) (data : List UInt8) : Except CoffError Image := do
  let some bytes := slice? data offset (executableBytes width) | throw .executableHeader
  let some h := record? bytes Header.reader Header.byteCount 4 | throw .executableHeader
  if h.optionalSize < optionalBytes width then throw .smallOptionalHeader
  let directories := offset + executableBytes width
  let some optional := slice? data directories (h.optionalSize - optionalBytes width)
    | throw .optionalHeader
  let directoryCount := words.order.value (bytes.drop (executableBytes width - 4))
  if (slice? optional 0 (8 * directoryCount)).isNone then throw .dataDirectories
  let headers ← sectionTable h data (directories + optional.length)
  let table := match SymbolTable.read h data with | .ok table => table | .error _ => .empty
  let base := words.order.value ((bytes.drop 52).take 4)
  return toImage width false base SectionHeader.loadedStorage h headers table data

end Coff

end SourceScope
