import SourceScope.DebugInfo.Sections
import SourceScope.Machine.Opcode

set_option autoImplicit false

namespace SourceScope

structure Symbol where
  name : String
  -- The name as the linker knows it.
  linkName : String
  address : UInt32
  -- Zero where it is unknown.
  size : UInt32
  isFunction : Bool
deriving DecidableEq, Repr

structure CodeSection where
  name : String
  origin : UInt32
  data : List UInt8
deriving DecidableEq, Repr

structure Binary where
  order : ByteOrder
  isRelocatable : Bool
  -- Debug sections by name.
  debug : List (String × List UInt8)
  symbols : List Symbol
  code : List CodeSection
deriving Repr

namespace Binary

def section? (binary : Binary) (name : String) : Option (List UInt8) := binary.debug.lookup name

def debugSections (binary : Binary) : DebugSections := ⟨binary.order, binary.section?⟩

def functionSymbols (binary : Binary) : List Symbol := binary.symbols.filter (·.isFunction)

end Binary

end SourceScope
