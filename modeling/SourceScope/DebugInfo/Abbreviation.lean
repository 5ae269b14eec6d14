import SourceScope.Bytes.Leb128

set_option autoImplicit false

namespace SourceScope

structure AttributeForm where
  name : Nat
  form : Nat
  -- The value itself, if the table holds it.
  implied : Option Int
deriving DecidableEq, Repr

structure Abbreviation where
  code : Nat
  tag : Nat
  hasChildren : Bool
  attributes : List AttributeForm
deriving DecidableEq, Repr

namespace Abbreviation

def impliedForm : Nat := 0x21

def attributeForm : Reader (Option AttributeForm) := do
  let name ← Leb128.unsigned16
  let form ← Leb128.unsigned16
  if name = 0 then
    if form = 0 then return none else Reader.fail .expectedZero
  else if form = 0 then Reader.fail .zeroForm
  else if form.toNat = impliedForm then
    return some ⟨name.toNat, form.toNat, some (← Leb128.signed)⟩
  else return some ⟨name.toNat, form.toNat, none⟩

def attributeForms : Reader (List AttributeForm) := fun bytes =>
  match attributeForm bytes with
  | .error e => .error e
  | .ok (none, rest) => .ok ([], rest)
  | .ok (some found, rest) =>
    -- a name and a form take a byte each
    if _ : rest.length < bytes.length then
      match attributeForms rest with
      | .error e => .error e
      | .ok (later, left) => .ok (found :: later, left)
    else .error .unexpectedEnd
termination_by bytes => bytes.length

def hasChildrenByte : Reader Bool := do
  match (← Reader.byte).toNat with
  | 0 => return false
  | 1 => return true
  | _ => Reader.fail .badHasChildren

def reader : Reader (Option Abbreviation) := do
  let code ← Leb128.unsigned
  if code = 0 then return none
  let tag ← Leb128.unsigned16
  if tag = 0 then Reader.fail .zeroTag
  let hasChildren ← hasChildrenByte
  return some ⟨code, tag.toNat, hasChildren, ← attributeForms⟩

def tableFrom (found : List Abbreviation) (bytes : List UInt8) :
    Except ReadError (List Abbreviation) :=
  if bytes.isEmpty then .ok found
  else
    match reader bytes with
    | .error e => .error e
    | .ok (none, _) => .ok found
    | .ok (some abbreviation, rest) =>
      if found.any (·.code == abbreviation.code) then .error .duplicateAbbreviation
      else if _ : rest.length < bytes.length then tableFrom (abbreviation :: found) rest
      else .error .unexpectedEnd
termination_by bytes.length

def table (data : List UInt8) (offset : Nat) : Except ReadError (List Abbreviation) :=
  if data.length < offset then .error .unexpectedEnd else tableFrom [] (data.drop offset)

end Abbreviation

end SourceScope
