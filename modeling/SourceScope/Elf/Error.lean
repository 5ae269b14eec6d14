set_option autoImplicit false

namespace SourceScope

inductive ElfError where
  | headerSize
  | unsupportedHeader
  | programEntrySize
  | programTable
  | noSectionForProgramCount
  | sectionEntrySize
  | sectionTable
  | firstSection
  | noSectionForNames
  | noNameSection
  | badNameSection
  | nameTableSize
  | symbolTable
  | symbolNames
  | symbolNamesType
  | sectionIndexTable
  | relocatedSection
deriving DecidableEq, Repr

namespace ElfError

def message : ElfError → String
  | headerSize => "Invalid ELF header size or alignment"
  | unsupportedHeader => "Unsupported ELF header"
  | programEntrySize => "Invalid ELF program header entry size"
  | programTable => "Invalid ELF program header size or alignment"
  | noSectionForProgramCount => "Missing ELF section headers for e_phnum overflow"
  | sectionEntrySize => "Invalid ELF section header entry size"
  | sectionTable => "Invalid ELF section header offset/size/alignment"
  | firstSection => "Invalid ELF section header offset or size"
  | noSectionForNames => "Missing ELF section headers for e_shstrndx overflow"
  | noNameSection => "Missing ELF e_shstrndx"
  | badNameSection => "Invalid ELF e_shstrndx"
  | nameTableSize => "Invalid ELF shstrtab size"
  | symbolTable => "Invalid ELF symbol table data"
  | symbolNames => "Invalid ELF section index"
  | symbolNamesType => "Invalid ELF string section type"
  | sectionIndexTable => "Invalid ELF symtab_shndx data"
  | relocatedSection => "Invalid ELF sh_info for relocation section"

end ElfError

end SourceScope
