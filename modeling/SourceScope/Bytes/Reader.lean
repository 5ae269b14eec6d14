import SourceScope.Bytes.Order

set_option autoImplicit false

namespace SourceScope

inductive ReadError where
  | unexpectedEnd
  | badUnsignedLeb128
  | badSignedLeb128
  | unknownOperation
  | wideRegister
  | addressOverflow
  | notAString
  | unknownAbbreviation
  | unknownVersion
  | unknownUnitType
  | missingPathFormat
  | zeroLineRange
  | zeroOperationsPerInstruction
  | zeroInstructionLength
  | zeroOpcodeBase
  | unsupportedAddressSize
  | missingRootEntry
  | expectedZero
  | duplicateAbbreviation
  | unknownForm
  | reservedLength
  | badHasChildren
  | zeroTag
  | zeroForm
  | impliedConstant
  | unsupportedSegmentSize
deriving DecidableEq, Repr

namespace ReadError

def message : ReadError → String
  | unexpectedEnd => "Hit the end of input before it was expected"
  | badUnsignedLeb128 => "An error parsing an unsigned LEB128 value"
  | badSignedLeb128 => "An error parsing a signed LEB128 value"
  | unknownOperation => "Invalid opcode in DWARF expression"
  | wideRegister => "Registers larger than \x60u16\x60 are not supported."
  | addressOverflow => "An address calculation overflowed."
  | notAString => "Expected an attribute value to be a string form."
  | unknownAbbreviation => "Found a record with an unknown abbreviation code"
  | unknownVersion => "Found an unknown DWARF version"
  | unknownUnitType => "The unit type is not supported"
  | missingPathFormat => "Missing DW_LNCT_path in file entry format."
  | zeroLineRange => "The line range must not be zero."
  | zeroOperationsPerInstruction => "The maximum operations per instruction must not be zero."
  | zeroInstructionLength => "The minimum instruction length must not be zero."
  | zeroOpcodeBase => "The opcode base must not be zero."
  | unsupportedAddressSize => "The specified address size is not supported"
  | missingRootEntry => "A compilation unit or type unit is missing its top level DIE."
  | expectedZero => "Expected a zero, found something else"
  | duplicateAbbreviation => "Found an abbreviation code that has already been used"
  | unknownForm => "Found an unknown \x60DW_FORM_*\x60 type"
  | reservedLength => "Found an unknown reserved length value"
  | badHasChildren =>
    "The abbreviation's has-children byte was not one of\n                 \x60DW_CHILDREN_\x7byes,no\x7d\x60"
  | zeroTag =>
    "An abbreviation declared that its tag is zero,\n                 but zero is reserved for null records"
  | zeroForm =>
    "An attribute specification declared that its form is zero,\n                 but zero is reserved for null records"
  | impliedConstant => "DW_FORM_implicit_const used in an invalid context."
  | unsupportedSegmentSize => "Nonzero segment selector sizes aren't supported yet."

end ReadError

abbrev Reader := StateT (List UInt8) (Except ReadError)

namespace Reader

def read {α : Type} (reader : Reader α) (bytes : List UInt8) : Except ReadError α :=
  match reader bytes with
  | .error e => .error e
  | .ok (a, _) => .ok a

def fail {α : Type} (e : ReadError) : Reader α := fun _ => .error e

def byte : Reader UInt8
  | [] => .error .unexpectedEnd
  | b :: rest => .ok (b, rest)

def take (count : Nat) : Reader (List UInt8) := fun bytes =>
  let taken := bytes.take count
  if taken.length = count then .ok (taken, bytes.drop count) else .error .unexpectedEnd

def remaining : Reader (List UInt8) := fun bytes => .ok (bytes, [])

def untilZero : Reader (List UInt8)
  | [] => .error .unexpectedEnd
  | b :: rest =>
    if b = 0 then .ok ([], rest)
    else
      match untilZero rest with
      | .error e => .error e
      | .ok (text, left) => .ok (b :: text, left)

def natural (order : ByteOrder) (count : Nat) : Reader Nat := do
  return order.value (← take count)

def word16 (order : ByteOrder) : Reader UInt16 := do return UInt16.ofNat (← natural order 2)

def word32 (order : ByteOrder) : Reader UInt32 := do return UInt32.ofNat (← natural order 4)

def times {α : Type} (item : Reader α) : (count : Nat) → Reader (List α)
  | 0 => return []
  | count + 1 => do return (← item) :: (← times item count)

def many {α : Type} (item : Nat → Reader α) (bytes : List UInt8) : Except ReadError (List α) :=
  if bytes.isEmpty then .ok []
  else
    match item bytes.length bytes with
    | .error e => .error e
    | .ok (a, rest) =>
      if _ : rest.length < bytes.length then
        match many item rest with
        | .error e => .error e
        | .ok items => .ok (a :: items)
      else .error .unexpectedEnd
termination_by bytes.length

@[simp] theorem take_append (front rest : List UInt8) :
    take front.length (front ++ rest) = .ok (front, rest) := by
  simp [take]

theorem natural_of_take {order : ByteOrder} {count : Nat} {input bytes rest : List UInt8}
    (taken : take count input = .ok (bytes, rest)) :
    natural order count input = .ok (order.value bytes, rest) := by
  change Except.bind (take count input) _ = _
  rw [taken]
  rfl

@[simp] theorem word32_append (order : ByteOrder) (word : UInt32) (rest : List UInt8) :
    word32 order (order.bytes32 word ++ rest) = .ok (word, rest) := by
  have taken : take 4 (order.bytes32 word ++ rest) = .ok (order.bytes32 word, rest) := by
    have h := take_append (order.bytes32 word) rest
    rwa [ByteOrder.bytes32, ByteOrder.length_encode] at h
  have fits : word.toNat < ByteOrder.capacity 4 := word.toNat_lt
  change Except.bind (natural order 4 (order.bytes32 word ++ rest)) _ = _
  rw [natural_of_take taken, ByteOrder.bytes32, ByteOrder.value_encode, Nat.mod_eq_of_lt fits]
  change Except.ok (UInt32.ofNat word.toNat, rest) = _
  rw [UInt32.ofNat_toNat]

end Reader

end SourceScope
