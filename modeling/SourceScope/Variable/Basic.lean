import SourceScope.Layout.Table
import SourceScope.Location.Basic

set_option autoImplicit false

namespace SourceScope

inductive VariablePlace where
  -- A value known beforehand.
  | constant (value : UInt32)
  | located (location : Location)
  -- Bytes from the start of the whole.
  | offset (offset : UInt32)
  -- An expression evaluated with the address of the whole on the stack.
  | member (expression : Location.Expression)
  -- The value of the whole, taken as an address.
  | target
  | nowhere (reason : String)
deriving DecidableEq, Repr

inductive Resolution where
  | pending
  -- No value means that memory could not be read.
  | resolved (address value : Option UInt32)
  | outOfScope
  | notLocatable (reason : String)
deriving DecidableEq, Repr, Inhabited

structure Variable where
  -- Parts are named after the member, `[i]` or `*`.
  name : String
  type : TypeId
  size : UInt32
  declarationFile : Option String
  declarationLine : Option UInt32
  place : VariablePlace
  resolution : Resolution
  parts : List Variable
deriving Repr

namespace Variable

def unevaluated (name : String) (type : TypeId) (size : UInt32) (place : VariablePlace)
    (parts : List Variable) : Variable :=
  ⟨name, type, size, none, none, place, .pending, parts⟩

def partsOf (types : TypeTable) (type : TypeId) : List (String × TypeId × VariablePlace) :=
  match types.get? type with
  | none => []
  | some { shape := .base, .. } | some { shape := .pointer none, .. } => []
  | some { shape := .pointer (some target), .. } => [("*", target, .target)]
  | some { shape := .array element count, .. } =>
    let stride := ((types.get? element).map (·.size)).getD 0
    (List.range count.toNat).map fun i =>
      (s!"[{i}]", element, .offset (UInt32.ofNat i * stride))
  | some { shape := .composite _ members, .. } =>
    members.map fun m =>
      (m.name, m.type,
        match m.place with
        | .offset offset => .offset offset
        | .expression e => .member e)

def layOut (types : TypeTable) : (depth : Nat) → TypeId → List Variable
  | 0, _ => []
  | depth + 1, type =>
    (partsOf types type).map fun (name, part, place) =>
      let size := ((types.get? part).map (·.size)).getD 0
      unevaluated name part size place (layOut types depth part)

def make (types : TypeTable) (depth : Nat) (name : String) (type : TypeId) (size : UInt32)
    (place : VariablePlace) : Variable :=
  unevaluated name type size place (layOut types depth type)

def part? : List String → Variable → Option Variable
  | [], _ => none
  | [name], v => v.parts.find? (·.name == name)
  | name :: path, v => (v.parts.find? (·.name == name)).bind (part? path)

def address? (v : Variable) : Option UInt32 :=
  match v.resolution with
  | .resolved address _ => address
  | _ => none

def value? (v : Variable) : Option UInt32 :=
  match v.resolution with
  | .resolved _ value => value
  | _ => none

def staticAddress? (v : Variable) : Option UInt32 :=
  match v.place with
  | .located (.expression e) =>
    match e.operations with
    | [.const address] => some address
    | _ => none
  | _ => none

end Variable

end SourceScope
