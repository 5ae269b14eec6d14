set_option autoImplicit false

namespace SourceScope

inductive XcoffError where
  | header
  | auxiliaryHeader
  | sectionTable
  | symbolTable
  | noStrings
deriving DecidableEq, Repr

namespace XcoffError

def message : XcoffError → String
  | header => "Invalid XCOFF header size or alignment"
  | auxiliaryHeader => "Invalid XCOFF auxiliary header size"
  | sectionTable => "Invalid XCOFF section headers"
  | symbolTable => "Invalid XCOFF symbol table offset or size"
  | noStrings => "Missing XCOFF string table"

end XcoffError

end SourceScope
