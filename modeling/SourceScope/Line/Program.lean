import SourceScope.DebugInfo.Sections
import SourceScope.DebugInfo.Unit
import SourceScope.Line.Extent
import SourceScope.Path
import SourceScope.Text.Utf8

set_option autoImplicit false

namespace SourceScope.LineProgram

structure FileEntry where
  name : FormValue
  directory : Nat
deriving DecidableEq, Repr

structure Header where
  version : UInt16
  encoding : Encoding
  minInstructionLength : Nat
  maxOperations : Nat
  lineBase : Int
  lineRange : Nat
  opcodeBase : Nat
  -- Number of operands of each standard opcode.
  operandCounts : List UInt8
  directories : List FormValue
  files : List FileEntry
  program : List UInt8
deriving Repr

def directories : Reader (List FormValue) := fun bytes =>
  match Reader.untilZero bytes with
  | .error e => .error e
  | .ok ([], rest) => .ok ([], rest)
  | .ok (name, rest) =>
    if _ : rest.length < bytes.length then
      match directories rest with
      | .error e => .error e
      | .ok (later, left) => .ok (.text name :: later, left)
    else .error .unexpectedEnd
termination_by bytes => bytes.length

def fileFields : Reader Nat := do
  let directory ← Leb128.unsigned
  discard Leb128.unsigned
  discard Leb128.unsigned
  return directory

def files : Reader (List FileEntry) := fun bytes =>
  match Reader.untilZero bytes with
  | .error e => .error e
  | .ok ([], rest) => .ok ([], rest)
  | .ok (name, rest) =>
    match fileFields rest with
    | .error e => .error e
    | .ok (directory, rest) =>
      if _ : rest.length < bytes.length then
        match files rest with
        | .error e => .error e
        | .ok (later, left) => .ok (⟨.text name, directory⟩ :: later, left)
      else .error .unexpectedEnd
termination_by bytes => bytes.length

inductive Content where
  | path
  | directory
  | unused
deriving DecidableEq, Repr

abbrev Description := List (Content × Nat)

def contentOf (code : Nat) : Content :=
  match code with
  | 1 => .path
  | 2 => .directory
  | _ => .unused

def descriptionFields : Nat → Reader Description
  | 0 => return []
  | count + 1 => do
    let content ← Leb128.unsigned
    let form ← Leb128.unsigned16
    return (contentOf content, form.toNat) :: (← descriptionFields count)

def description : Reader Description := do
  let fields ← descriptionFields (← Reader.byte).toNat
  if (fields.filter (·.1 == .path)).length = 1 then return fields
  else Reader.fail .missingPathFormat

def describedEntry (e : Encoding) : Description → FileEntry → Reader FileEntry
  | [], entry => return entry
  | (content, form) :: more, entry => do
    let value ← FormValue.lineTableReader e form
    match content with
    | .path => describedEntry e more { entry with name := value }
    | .directory =>
      describedEntry e more { entry with directory := value.natural?.getD entry.directory }
    | .unused => describedEntry e more entry

def describedList (e : Encoding) (fields : Description) (count : Nat) : Reader (List FileEntry) :=
  fun bytes =>
    if count = 0 then .ok ([], bytes)
    else
      match describedEntry e fields ⟨.other, 0⟩ bytes with
      | .error cause => .error cause
      | .ok (entry, rest) =>
        -- the path takes a byte at least
        if _ : rest.length < bytes.length then
          match describedList e fields (count - 1) rest with
          | .error cause => .error cause
          | .ok (later, left) => .ok (entry :: later, left)
        else .error .unexpectedEnd
termination_by bytes => bytes.length

def describedEntries (e : Encoding) : Reader (List FileEntry) := do
  let fields ← description
  describedList e fields (← Leb128.unsigned)

def nonzeroByte (cause : ReadError) : Reader Nat := do
  let b ← Reader.byte
  if b = 0 then Reader.fail cause else return b.toNat

def headerFields (version : UInt16) (e : Encoding) (program : List UInt8) : Reader Header := do
  let minInstructionLength ← nonzeroByte .zeroInstructionLength
  let maxOperations ←
    if 4 ≤ version then nonzeroByte .zeroOperationsPerInstruction else pure 1
  discard Reader.byte
  let lineBase := ((← Reader.byte).toNat : Int).bmod 256
  let lineRange ← nonzeroByte .zeroLineRange
  let opcodeBase ← nonzeroByte .zeroOpcodeBase
  let operandCounts ← Reader.take (opcodeBase - 1)
  let directories ←
    if version ≤ 4 then directories else (·.map (·.name)) <$> describedEntries e
  let files ← if version ≤ 4 then files else describedEntries e
  return {
    version, encoding := e, minInstructionLength, maxOperations, lineBase, lineRange, opcodeBase,
    operandCounts, directories, files, program }

def header (order : ByteOrder) (addresses : Nat) : Reader Header := do
  let (length, offsetSize) ← initialLength order
  let body ← Reader.take length
  let inner : Reader Header := do
    let version ← Reader.word16 order
    if version < 2 ∨ 5 < version then Reader.fail .unknownVersion
    let addresses ← if 5 ≤ version then addressSize else pure addresses
    if 5 ≤ version then
      let selector ← Reader.byte
      if selector ≠ 0 then Reader.fail .unsupportedSegmentSize
    let headerLength ← Reader.natural order offsetSize
    let fields ← Reader.take headerLength
    let program ← Reader.remaining
    match (headerFields version ⟨order, addresses, offsetSize⟩ program).read fields with
    | .error e => Reader.fail e
    | .ok header => return header
  match inner.read body with
  | .error e => Reader.fail e
  | .ok header => return header

inductive Instruction where
  | special (adjusted : Nat)
  | copy
  | advancePc (operations : Nat)
  | advanceLine (lines : Int)
  | setFile (file : Nat)
  | constAddPc
  | fixedAddPc (bytes : Nat)
  | endSequence
  | setAddress (address : Nat)
  -- Has no influence on addresses, files and lines.
  | ignored
deriving DecidableEq, Repr

def extendedOperands (h : Header) : Reader Instruction := do
  match (← Reader.byte).toNat with
  | 0x01 => return .endSequence
  | 0x02 => return .setAddress (← Reader.natural h.encoding.order h.encoding.addressSize)
  | 0x03 =>
    if h.version ≤ 4 then
      discard Reader.untilZero
      discard fileFields
    return .ignored
  | 0x04 =>
    discard Leb128.unsigned
    return .ignored
  | _ => return .ignored

def extended (h : Header) : Reader Instruction := do
  let body ← Reader.take (← Leb128.unsigned)
  match (extendedOperands h).read body with
  | .error e => Reader.fail e
  | .ok instruction => return instruction

def skipOperands : Nat → Reader Unit
  | 0 => return ()
  | count + 1 => do
    discard Leb128.unsigned
    skipOperands count

def instruction (h : Header) : Reader Instruction := do
  let opcode := (← Reader.byte).toNat
  if opcode = 0 then extended h
  else if h.opcodeBase ≤ opcode then return .special (opcode - h.opcodeBase)
  else
    match opcode with
    | 0x01 => return .copy
    | 0x02 => return .advancePc (← Leb128.unsigned)
    | 0x03 => return .advanceLine (← Leb128.signed)
    | 0x04 => return .setFile (← Leb128.unsigned)
    | 0x05 | 0x0c =>
      discard Leb128.unsigned
      return .ignored
    | 0x06 | 0x07 | 0x0a | 0x0b => return .ignored
    | 0x08 => return .constAddPc
    | 0x09 => return .fixedAddPc (← Reader.natural h.encoding.order 2)
    | _ =>
      skipOperands ((h.operandCounts[opcode - 1]?).getD 0).toNat
      return .ignored

structure Registers where
  address : Nat
  operation : Nat
  file : Nat
  line : Nat
  -- The latest address was none that code can have; no rows until the next.
  dead : Bool
deriving DecidableEq, Repr

namespace Registers

def initially : Registers := ⟨0, 0, 1, 1, false⟩

def advanceLine (r : Registers) (lines : Int) : Registers :=
  let line := (r.line : Int) + lines
  { r with line := if line < 0 then 0 else line.toNat % UInt64.size }

def addressLimit (h : Header) : Nat := ByteOrder.capacity h.encoding.addressSize

def moveBy (r : Registers) (h : Header) (bytes : Nat) : Except ReadError Registers :=
  let address := r.address + bytes
  if address < addressLimit h then .ok { r with address } else .error .addressOverflow

def advance (r : Registers) (h : Header) (operations : Nat) : Except ReadError Registers :=
  if r.dead then .ok r
  else if h.maxOperations = 1 then
    { r with operation := 0 }.moveBy h (h.minInstructionLength * operations % UInt64.size)
  else
    let operation := (r.operation + operations) % UInt64.size
    { r with operation := operation % h.maxOperations }.moveBy h
      (h.minInstructionLength * (operation / h.maxOperations) % UInt64.size)

def step (h : Header) (r : Registers) : Instruction → Except ReadError (Registers × Bool)
  | .special adjusted => do
    let r := r.advanceLine (h.lineBase + adjusted % h.lineRange)
    return (← r.advance h (adjusted / h.lineRange), true)
  | .copy => return (r, true)
  | .advancePc operations => do return (← r.advance h operations, false)
  | .advanceLine lines => return (r.advanceLine lines, false)
  | .setFile file => return ({ r with file }, false)
  | .constAddPc => do return (← r.advance h ((255 - h.opcodeBase) / h.lineRange), false)
  | .fixedAddPc bytes => do
    if r.dead then return (r, false)
    else return (← { r with operation := 0 }.moveBy h bytes, false)
  | .endSequence => return (r, true)
  | .setAddress address =>
    if address < r.address ∨ addressLimit h ≤ address + 2 then return ({ r with dead := true }, false)
    else return ({ r with address, operation := 0, dead := false }, false)
  | .ignored => return (r, false)

end Registers

abbrev FileTable := List (Nat × String)

def rowOf (files : FileTable) (r : Registers) (ends : Bool) : LineRow where
  address := UInt32.ofNat r.address
  file := (files.lookup r.file).getD ""
  line := UInt32.ofNat r.line
  endsSequence := ends

def rows (h : Header) (files : FileTable) (r : Registers) (bytes : List UInt8) :
    Except ReadError (List LineRow) :=
  if bytes.isEmpty then .ok []
  else
    match instruction h bytes with
    | .error e => .error e
    | .ok (found, rest) =>
      match r.step h found with
      | .error e => .error e
      | .ok (next, makesRow) =>
        -- every instruction has an opcode
        if _ : rest.length < bytes.length then
          let ends := found == .endSequence
          match rows h files (if ends then .initially else next) rest with
          | .error e => .error e
          | .ok later =>
            .ok (if makesRow && !next.dead then rowOf files next ends :: later else later)
        else .error .unexpectedEnd
termination_by bytes.length

/-- The directory of a file. Old headers leave out the compilation directory, which has number
zero in them. -/
def directory? (h : Header) (compilation : Option (List UInt8)) (index : Nat) : Option FormValue :=
  if h.version ≤ 4 then
    match index with
    | 0 => compilation.map .text
    | index + 1 => h.directories[index]?
  else h.directories[index]?

def fileTable (s : DebugSections) (bases : DebugSections.Bases) (offsetSize : Nat) (h : Header)
    (compilation : Option (List UInt8)) (compilationName : Option String) :
    Except ReadError FileTable := do
  let first := if 5 ≤ h.version then 0 else 1
  let text (value : FormValue) : Except ReadError String := do
    return Utf8.lossy (← s.stringBytes offsetSize bases value)
  let paths ← h.files.mapM fun file => do
    let name ← text file.name
    let directory ← (directory? h compilation file.directory).mapM text
    return Path.join compilationName directory name
  return paths.mapIdx fun i path => (i + first, path)

end SourceScope.LineProgram
