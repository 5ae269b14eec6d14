import SourceScope.Location.Expression
import SourceScope.Text.Binary32

set_option autoImplicit false

namespace SourceScope

abbrev TypeId := Nat

inductive MemberPlace where
  -- Bytes from the start of the object.
  | offset (offset : UInt32)
  -- An expression evaluated with the object's address on the stack.
  | expression (expression : Location.Expression)
deriving DecidableEq, Repr

structure Member where
  name : String
  type : TypeId
  place : MemberPlace
deriving DecidableEq, Repr

inductive Shape where
  -- A number or an enumeration.
  | base
  -- No target means one that is unknown.
  | pointer (target : Option TypeId)
  | array (element : TypeId) (count : UInt32)
  | composite (isUnion : Bool) (members : List Member)
deriving DecidableEq, Repr

structure SourceType where
  name : String
  size : UInt32
  shape : Shape
  isSigned : Bool
  isConst : Bool
  isVolatile : Bool
  isFloat : Bool
  -- Offset of the entry that defines it.
  offset : Nat
deriving DecidableEq, Repr

namespace SourceType

def plain (name : String) (size : UInt32) (shape : Shape) (offset : Nat) : SourceType :=
  ⟨name, size, shape, false, false, false, false, offset⟩

def isPointer (t : SourceType) : Bool :=
  match t.shape with
  | .pointer _ => true
  | _ => false

def isComposite (t : SourceType) : Bool :=
  match t.shape with
  | .composite .. => true
  | _ => false

def members (t : SourceType) : List Member :=
  match t.shape with
  | .composite _ members => members
  | _ => []

def mask (t : SourceType) (raw : UInt32) : UInt32 :=
  match t.size with
  | 1 => raw &&& 0xff
  | 2 => raw &&& 0xffff
  | _ => raw

def signedText (size value : UInt32) : String :=
  let bytes := min (max size.toNat 1) 4
  toString ((value.toNat : Int).bmod (ByteOrder.capacity bytes))

def show_ (t : SourceType) (raw : UInt32) : String :=
  let value := t.mask raw
  if t.isFloat && t.size == 4 then Binary32.text value
  else
    match t.shape with
    | .pointer _ => Hex.address value
    | .base => if t.isSigned then signedText t.size value else toString value
    | .array .. | .composite .. => Hex.address value

end SourceType

end SourceScope
