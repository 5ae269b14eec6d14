import SourceScope.Bytes.Reader

set_option autoImplicit false

namespace SourceScope

inductive Width where
  | narrow
  | wide
deriving DecidableEq, Repr

structure WordFormat where
  width : Width
  order : ByteOrder
deriving DecidableEq, Repr

namespace WordFormat

def half (e : WordFormat) : Reader Nat := Reader.natural e.order 2

def word (e : WordFormat) : Reader Nat := Reader.natural e.order 4

def size (e : WordFormat) : Reader Nat :=
  Reader.natural e.order (match e.width with | .narrow => 4 | .wide => 8)

end WordFormat

def slice? (data : List UInt8) (offset size : Nat) : Option (List UInt8) :=
  if data.length < offset then none
  else
    let found := (data.drop offset).take size
    if found.length = size then some found else none

def record? {α : Type} (data : List UInt8) (record : Reader α) (size offset : Nat) : Option α := do
  let bytes ← slice? data offset size
  (record.read bytes).toOption

def table? {α : Type} (data : List UInt8) (record : Reader α) (size offset count : Nat) :
    Option (List α) :=
  record? data (record.times count) (size * count) offset

def textAt? (strings : List UInt8) (offset : Nat) : Option (List UInt8) :=
  (Reader.untilZero.read (strings.drop offset)).toOption

def fieldText (field : List UInt8) : List UInt8 := field.takeWhile (· ≠ 0)

def sizedStrings? (order : ByteOrder) (data : List UInt8) (offset : Nat) : Option (List UInt8) := do
  let size ← slice? data offset 4
  return (slice? data offset (order.value size)).getD []

end SourceScope
