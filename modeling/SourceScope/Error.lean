import SourceScope.Frame.Section
import SourceScope.Settings

set_option autoImplicit false

namespace SourceScope

inductive ModelError where
  -- The binary is no file of the supported format.
  | elf (text : String)
  -- The contents of a section of the binary could not be had.
  | object (text : String)
  | debugData (cause : ReadError)
  | unsupportedVersion (version : UInt16) (offset : Nat)
  | unsupported (text : String)
  | missingSection (name : String)
  | malformedFrame (cause : FrameError)
  | unknownUnit (entry unit : Nat)
  | settings (text : String)
  | inContext (context : String) (cause : ModelError)
deriving DecidableEq, Repr

namespace ModelError

def message : ModelError → String
  | elf text => "ELF error: " ++ text
  | object text => "Object error: " ++ text
  | debugData cause => "DWARF error: " ++ cause.message
  | unsupportedVersion version offset =>
    s!"Unsupported DWARF version {version} in unit at offset 0x" ++ Hex.text offset
  | unsupported text => "Unsupported: " ++ text
  | missingSection name => "Missing section: " ++ name
  | malformedFrame cause => "Malformed call frame information: " ++ cause.message
  | unknownUnit entry unit =>
    "Entry at offset 0x" ++ Hex.text entry ++ s!" references unknown compile unit {unit}"
  | settings text => "Configuration error: " ++ text
  | inContext context cause => context ++ ": " ++ cause.message

def root : ModelError → ModelError
  | inContext _ cause => cause.root
  | cause => cause

end ModelError

end SourceScope
