import SourceScope.Elf.Relocation

set_option autoImplicit false

namespace SourceScope

namespace Elf

structure File where
  data : List UInt8
  header : Header
  sections : List Section
  symbols : SymbolTable
  -- For each section, where its relocations are.
  links : Array Nat

namespace File

def read (width : Width) (data : List UInt8) : Except ElfError File := do
  let header ← Header.read width data
  header.checkPrograms data
  let sections ← header.sections data
  let symbols ← SymbolTable.read header.words data sections SectionType.symbols
  let _dynamic ← SymbolTable.read header.words data sections SectionType.dynamicSymbols
  let links ← relocationLinks symbols.sectionIndex sections
  return { data, header, sections, symbols, links }

def relocations (file : File) (index : Nat) (s : Section) : List Relocation :=
  if file.header.isRelocatable && s.name.any Image.isDebugName then
    (relocationsOf file.header.words file.data file.sections file.links index).filterMap
      (RelocationRecord.relocation? file.symbols)
  else []

def sectionOf (file : File) (index : Nat) (s : Section) : Image.Section where
  name := s.name
  address := s.header.address
  isCode := s.header.isCode
  storage := s.storage file.header.words file.data
  relocations := file.relocations index s

def toImage (file : File) : Image where
  width := file.header.width
  order := file.header.words.order
  isRelocatable := file.header.isRelocatable
  naming := .plain
  -- there is no section and no symbol at index zero
  sections := (file.sections.mapIdx file.sectionOf).drop 1
  definitions := file.symbols.symbols.map fun (index, s) => file.symbols.definition index s
  data := file.data

end File

def read (width : Width) (data : List UInt8) : Except ElfError Image :=
  (File.read width data).map File.toImage

end Elf

end SourceScope
