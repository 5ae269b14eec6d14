import SourceScope.Code.Range
import SourceScope.DebugInfo.Names
import SourceScope.Line.Extent

set_option autoImplicit false

namespace SourceScope

inductive AttrValue where
  | address (address : UInt32)
  | unsigned (n : UInt64)
  | signed (n : Int64)
  | flag (b : Bool)
  -- A block of bytes or an expression.
  | block (bytes : List UInt8)
  | locationList (offset : Nat)
  | rangeList (offset : Nat)
  -- Another entry by its offset.
  | reference (offset : Nat)
  | text (s : String)
  | lineTable (offset : Nat)
  | other
deriving DecidableEq, Repr

namespace AttrValue

def natural? : AttrValue → Option UInt64
  | unsigned n => some n
  | signed n => if 0 ≤ n then some n.toUInt64 else none
  | _ => none

def integer? : AttrValue → Option Int64
  | unsigned n => some n.toInt64
  | signed n => some n
  | _ => none

def reference? : AttrValue → Option Nat
  | reference offset => some offset
  | _ => none

def text? : AttrValue → Option String
  | text s => some s
  | _ => none

end AttrValue

structure Entry where
  offset : Nat
  tag : Nat
  -- Offset of the root entry of its unit.
  unit : Nat
  depth : Nat
  -- Offset of the entry around it.
  parent : Option Nat
  attributes : List (Nat × AttrValue)
deriving DecidableEq, Repr

namespace Entry

def attr? (e : Entry) (name : Nat) : Option AttrValue := e.attributes.lookup name

def has (e : Entry) (name : Nat) : Bool := (e.attr? name).isSome

def text? (e : Entry) (name : Nat) : Option String := (e.attr? name).bind AttrValue.text?

def name? (e : Entry) : Option String := e.text? Attr.name

def linkageName? (e : Entry) : Option String :=
  if e.has Attr.linkageName then e.text? Attr.linkageName else e.text? Attr.oldLinkageName

def flag (e : Entry) (name : Nat) : Bool := e.attr? name == some (.flag true)

def natural? (e : Entry) (name : Nat) : Option UInt64 := (e.attr? name).bind AttrValue.natural?

def reference? (e : Entry) (name : Nat) : Option Nat := (e.attr? name).bind AttrValue.reference?

def byteSize? (e : Entry) : Option UInt32 := (e.natural? Attr.byteSize).map UInt64.toUInt32

def type? (e : Entry) : Option Nat := e.reference? Attr.type

end Entry

structure CompileUnit where
  offset : Nat
  name : String
  directory : Option String
  -- Where its code begins, which lists of ranges and locations are relative to.
  base : UInt32
  ranges : List CodeRange
  files : List (Nat × String)
  rows : List LineRow
deriving Repr

def CompileUnit.file? (u : CompileUnit) (index : Nat) : Option String := u.files.lookup index

end SourceScope
