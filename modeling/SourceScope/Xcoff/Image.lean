import SourceScope.Xcoff.Symbol

set_option autoImplicit false

namespace SourceScope

namespace Xcoff

def toImage (h : Header) (headers : List SectionHeader) (table : SymbolTable)
    (data : List UInt8) : Image where
  width := h.width
  order := .big
  isRelocatable := h.isRelocatable
  naming := .plain
  sections := headers.map SectionHeader.toSection
  definitions := table.symbols.map (Symbol.definition table.strings)
  data := data

def read (width : Width) (data : List UInt8) : Except XcoffError Image := do
  let some h := record? data (Header.reader width) (Header.byteCount width) 0 | throw .header
  let offset ← h.sectionOffset data
  let headers ← sectionTable h data offset
  let table ← SymbolTable.read h data
  return toImage h headers table data

end Xcoff

end SourceScope
