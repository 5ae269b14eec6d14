set_option autoImplicit false

namespace SourceScope

inductive CoffError where
  | header
  | bigHeader
  | executableHeader
  | smallOptionalHeader
  | optionalHeader
  | dataDirectories
  | sectionTable
  | symbolTable
  | noStrings
deriving DecidableEq, Repr

namespace CoffError

def message : CoffError → String
  | header => "Invalid COFF file header size or alignment"
  | bigHeader => "Invalid COFF bigobj file header size or alignment"
  | executableHeader => "Invalid PE headers offset or size"
  | smallOptionalHeader => "PE optional header size is too small"
  | optionalHeader => "Invalid PE optional header size"
  | dataDirectories => "Invalid PE number of RVA and sizes"
  | sectionTable => "Invalid COFF/PE section headers"
  | symbolTable => "Invalid COFF symbol table offset or size"
  | noStrings => "Missing COFF string table"

end CoffError

end SourceScope
