import SourceScope.Bytes.Leb128
import SourceScope.DebugInfo.Names

set_option autoImplicit false

namespace SourceScope

structure Encoding where
  order : ByteOrder
  addressSize : Nat
  -- Four bytes, or eight where a length says that offsets are wide.
  offsetSize : Nat
deriving DecidableEq, Repr

inductive FormValue where
  | address (address : Nat)
  | constant (n : Nat)
  | signed (n : Int)
  | flag (b : Bool)
  | block (bytes : List UInt8)
  | sectionOffset (offset : Nat)
  -- An entry by its offset in its unit.
  | unitReference (offset : Nat)
  -- An entry by its offset in the section.
  | reference (offset : Nat)
  | text (bytes : List UInt8)
  | textAt (offset : Nat)
  | lineTextAt (offset : Nat)
  | textIndex (index : Nat)
  | addressIndex (index : Nat)
  -- A class that is not interpreted.
  | other
deriving DecidableEq, Repr

namespace FormValue

def natural? : FormValue → Option Nat
  | constant n => some n
  | signed n => if 0 ≤ n then some n.toNat else none
  | _ => none

def sizedBlock (e : Encoding) (size : Nat) : Reader FormValue := do
  return block (← Reader.take (← Reader.natural e.order size))

def leb128Block : Reader FormValue := do return block (← Reader.take (← Leb128.unsigned))

def fixed (e : Encoding) (size : Nat) (make : Nat → FormValue) : Reader FormValue := do
  return make (← Reader.natural e.order size)

def number (make : Nat → FormValue) : Reader FormValue := do return make (← Leb128.unsigned)

def direct (form : Nat) : Reader Nat := fun bytes =>
  if form = 0x16 then
    match Leb128.unsigned16 bytes with
    | .error e => .error e
    | .ok (inner, rest) =>
      if _ : rest.length < bytes.length then direct inner.toNat rest else .error .unexpectedEnd
  else .ok (form, bytes)
termination_by bytes => bytes.length

def shared? (e : Encoding) (form : Nat) : Option (Reader FormValue) :=
  match form with
  | 0x03 => some (sizedBlock e 2)
  | 0x04 => some (sizedBlock e 4)
  | 0x05 => some (fixed e 2 constant)
  | 0x06 => some (fixed e 4 constant)
  | 0x07 => some (fixed e 8 constant)
  | 0x08 => some (do return text (← Reader.untilZero))
  | 0x09 => some leb128Block
  | 0x0a => some (sizedBlock e 1)
  | 0x0b => some (fixed e 1 constant)
  | 0x0c => some (do return flag ((← Reader.byte) != 0))
  | 0x0d => some (do return signed (← Leb128.signed))
  | 0x0e => some (fixed e e.offsetSize textAt)
  | 0x0f => some (number constant)
  | 0x17 => some (fixed e e.offsetSize sectionOffset)
  | 0x1a | 0x1f02 => some (number textIndex)
  | 0x1d | 0x1f21 => some (fixed e e.offsetSize fun _ => other)
  | 0x1e => some (do return block (← Reader.take 16))
  | 0x1f => some (fixed e e.offsetSize lineTextAt)
  | 0x25 => some (fixed e 1 textIndex)
  | 0x26 => some (fixed e 2 textIndex)
  | 0x27 => some (fixed e 3 textIndex)
  | 0x28 => some (fixed e 4 textIndex)
  | _ => none

def lineTableReader (e : Encoding) (form : Nat) : Reader FormValue :=
  match shared? e form with
  | some reader => reader
  | none => Reader.fail .unknownForm

def directReader (e : Encoding) (implied : Option Int) (form : Nat) : Reader FormValue :=
  match form with
  | 0x01 => fixed e e.addressSize address
  | 0x10 => fixed e e.offsetSize reference
  | 0x11 => fixed e 1 unitReference
  | 0x12 => fixed e 2 unitReference
  | 0x13 => fixed e 4 unitReference
  | 0x14 => fixed e 8 unitReference
  | 0x15 => number unitReference
  | 0x18 => leb128Block
  | 0x19 => return flag true
  | 0x1b | 0x1f01 => number addressIndex
  | 0x1c => fixed e 4 fun _ => other
  | 0x20 | 0x24 => fixed e 8 fun _ => other
  | 0x21 =>
    match implied with
    | some n => return signed n
    | none => Reader.fail .impliedConstant
  | 0x22 | 0x23 => number fun _ => other
  | 0x29 => fixed e 1 addressIndex
  | 0x2a => fixed e 2 addressIndex
  | 0x2b => fixed e 3 addressIndex
  | 0x2c => fixed e 4 addressIndex
  | 0x1f20 => fixed e e.offsetSize fun _ => other
  | _ =>
    match shared? e form with
    | some reader => reader
    | none => Reader.fail .unknownForm

def offsetAttributes : List Nat := [Attr.location, Attr.lineTable, Attr.frameBase, Attr.ranges]

def isOffsetWide (e : Encoding) (form : Nat) : Bool :=
  (form == 0x06 && e.offsetSize == 4) || (form == 0x07 && e.offsetSize == 8)

def reader (e : Encoding) (implied : Option Int) (name form : Nat) : Reader FormValue := do
  let form ← direct form
  match ← directReader e implied form with
  | constant n =>
    return if isOffsetWide e form && offsetAttributes.contains name then sectionOffset n
      else constant n
  | value => return value

end FormValue

end SourceScope
