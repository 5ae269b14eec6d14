import SourceScope.Image.Storage
import SourceScope.Text.Utf8

set_option autoImplicit false

namespace SourceScope

structure Position where
  address : Nat
  home : Option Nat
deriving DecidableEq, Repr

structure Relocation where
  offset : Nat
  target : Position
  -- What is added to the address. If there is none, the old word is added.
  addend : Option UInt32
deriving DecidableEq, Repr

inductive SymbolKind where
  | code
  | data
  | other
deriving DecidableEq, Repr

inductive Naming where
  | plain
  -- Two underscores may stand in place of the dot, and a `z` behind them.
  | underscored
deriving DecidableEq, Repr

def Naming.spellings (name : String) : Naming → List (List UInt8)
  | .plain => [name.toUTF8.toList]
  | .underscored =>
    let afterDot := name.toUTF8.toList.drop 1
    [name.toUTF8.toList, "__".toUTF8.toList ++ afterDot, "__z".toUTF8.toList ++ afterDot]

namespace Image

structure Section where
  -- None if the file says where the name is and it is not there.
  name : Option (List UInt8)
  address : Nat
  isCode : Bool
  storage : Storage
  relocations : List Relocation
deriving DecidableEq, Repr

structure Definition where
  name : Option (List UInt8)
  kind : SymbolKind
  position : Position
  size : Nat
deriving DecidableEq, Repr

def Section.nameText? (s : Section) : Option String := s.name.bind Utf8.strict

def Definition.nameText? (d : Definition) : Option String := d.name.bind Utf8.strict

end Image

structure Image where
  width : Width
  order : ByteOrder
  isRelocatable : Bool
  naming : Naming
  sections : List Image.Section
  definitions : List Image.Definition
  -- The whole file.
  data : List UInt8

namespace Image

def section? (image : Image) (number : Nat) : Option Section :=
  if number = 0 then none else image.sections[number - 1]?

def home? (image : Image) (p : Position) : Option Section := p.home.bind image.section?

def debugNames : List String :=
  [".debug_info", ".debug_abbrev", ".debug_str", ".debug_line", ".debug_loc", ".debug_ranges",
    ".debug_frame"]

def debugSection? (image : Image) (name : String) : Option Section :=
  let spellings := image.naming.spellings name
  image.sections.find? fun s => s.name.any spellings.contains

def isDebugName (name : List UInt8) : Bool := debugNames.any fun n => n.toUTF8.toList == name

end Image

end SourceScope
