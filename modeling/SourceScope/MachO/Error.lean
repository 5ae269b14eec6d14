set_option autoImplicit false

namespace SourceScope

inductive MachOError where
  | header
  | commandSize
  | sectionCount
  | symbolTable
deriving DecidableEq, Repr

namespace MachOError

def message : MachOError → String
  | header => "Invalid Mach-O header size or alignment"
  | commandSize => "Invalid Mach-O command size"
  | sectionCount => "Invalid Mach-O number of sections"
  | symbolTable => "Invalid Mach-O symbol table offset or size"

end MachOError

end SourceScope
