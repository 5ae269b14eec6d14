import SourceScope.Symbol.CratePath.Cursor
import SourceScope.Text.Quoted
import SourceScope.Text.Utf8

set_option autoImplicit false

namespace SourceScope.CratePath

structure State where
  -- Where to read on, or why nothing can be read.
  cursor : Except Fault Cursor
  -- In reverse.
  written : List Char
  -- For how many bytes there is room.
  room : Nat
  -- Whether only the form of the path matters.
  isSilent : Bool
  -- How many lifetimes the binders around have named.
  lifetimes : Nat

inductive Stop where
  -- A part of the path has a fault.
  | faulty
  -- There is no more room.
  | full
deriving DecidableEq, Repr

abbrev Writer (α : Type) : Type := ExceptT Stop (StateM State) α

namespace Writer

def maxDepth : Nat := 500

def maxRoom : Nat := 1000000

def write (text : String) : Writer Unit := do
  let state ← get
  if state.isSilent then return
  else if state.room < text.utf8ByteSize then throw .full
  else
    set { state with
      written := text.toList.reverse ++ state.written
      room := state.room - text.utf8ByteSize }

def fail {α : Type} (fault : Fault) : Writer α := do
  write fault.message
  modify ({ · with cursor := .error fault })
  throw .faulty

def read {α : Type} (word : Reader α) : Writer α := do
  match (← get).cursor with
  | .error _ =>
    write "?"
    throw .faulty
  | .ok cursor =>
    match word.run cursor with
    | .error fault => fail fault
    | .ok (a, cursor) =>
      modify ({ · with cursor := .ok cursor })
      return a

def part {α : Type} (default : α) (body : Writer α) : Writer α := do
  try body catch
    | .faulty => return default
    | .full => throw .full

def isFaulty : Writer Bool := do
  match (← get).cursor with
  | .error _ => return true
  | .ok _ => return false

def accepts (c : Char) : Writer Bool := do
  if ← isFaulty then return false else read (Reader.accepts c)

def ascend : Writer Unit := do
  modify fun state => { state with
    cursor := state.cursor.map fun cursor => { cursor with depth := cursor.depth - 1 } }

def stepBack : Writer Unit := do
  modify fun state => { state with
    cursor := state.cursor.map fun cursor => { cursor with next := cursor.next - 1 } }

def silently (body : Writer Unit) : Writer Unit := do
  let isSilent := (← get).isSilent
  modify ({ · with isSilent := true })
  body
  modify ({ · with isSilent := isSilent })

def referred {α : Type} (default : α) (body : Writer α) : Writer α := part default do
  let target ← read (Reader.backReference maxDepth)
  if (← get).isSilent then return default
  let cursor := (← get).cursor
  modify ({ · with cursor := .ok target })
  let a ← body
  modify ({ · with cursor := cursor })
  return a

def listUpTo (item : Writer Unit) (separator : String) : (room count : Nat) → Writer Nat
  | 0, count => return count
  | room + 1, count => do
    if (← isFaulty) || (← accepts 'E') then return count
    if 0 < count then write separator
    item
    listUpTo item separator room (count + 1)

def size : Writer Nat := do
  match (← get).cursor with
  | .error _ => return 0
  | .ok cursor => return cursor.symbol.size

def list (item : Writer Unit) (separator : String) : Writer Nat := do
  listUpTo item separator ((← size) + 1) 0

def lifetime (index : Nat) : Writer Unit := part () do
  if (← get).isSilent then return
  write "'"
  let known := (← get).lifetimes
  if index == 0 then write "_"
  else if known < index then fail .invalid
  else
    let place := known - index
    if place < 26 then write (String.singleton (Char.ofNat ('a'.toNat + place)))
    else write s!"_{place}"

def bindUpTo : (count : Nat) → (isFirst : Bool) → Writer Unit
  | 0, _ => return
  | count + 1, isFirst => do
    if !isFirst then write ", "
    modify fun state => { state with lifetimes := state.lifetimes + 1 }
    lifetime 1
    bindUpTo count false

def binder (body : Writer Unit) : Writer Unit := part () do
  let count ← read (Reader.optionalInteger62 'G')
  if (← get).isSilent then body
  else
    let known := (← get).lifetimes
    if 0 < count then
      write "for<"
      bindUpTo count true
      write "> "
    part () body
    modify ({ · with lifetimes := known })

def basicTypes : List (Char × String) := [
  ('b', "bool"), ('c', "char"), ('e', "str"), ('u', "()"), ('a', "i8"), ('s', "i16"), ('l', "i32"),
  ('x', "i64"), ('n', "i128"), ('i', "isize"), ('h', "u8"), ('t', "u16"), ('m', "u32"),
  ('y', "u64"), ('o', "u128"), ('j', "usize"), ('f', "f32"), ('d', "f64"), ('z', "!"),
  ('p', "_"), ('v', "...")]

def nibbleValue (c : Char) : Nat :=
  if c.isDigit then c.toNat - '0'.toNat else c.toNat - 'a'.toNat + 10

def valueOf (nibbles : List Char) : Nat := nibbles.foldl (fun n c => n * 16 + nibbleValue c) 0

def word? (nibbles : List Char) : Option Nat :=
  let n := valueOf nibbles
  if n < UInt64.size then some n else none

def bytes? : List Char → Option (List UInt8)
  | [] => some []
  | [_] => none
  | a :: b :: rest => do return UInt8.ofNat (nibbleValue a * 16 + nibbleValue b) :: (← bytes? rest)

def quoted (quote : Char) (text : List Char) : String :=
  let escape (c : Char) : List Char :=
    if c == '\'' || c == '"' then (if c == quote then ['\\', c] else [c]) else Quoted.escape c
  String.ofList (quote :: text.flatMap escape ++ [quote])

def integer (tag : Char) : Writer Unit := part () do
  let nibbles ← read Reader.nibbles
  match word? nibbles with
  | some n => write (toString n)
  | none =>
    write "0x"
    write (String.ofList nibbles)
  write ((basicTypes.lookup tag).getD "")

def string : Writer Unit := part () do
  let nibbles ← read Reader.nibbles
  match (bytes? nibbles).bind Utf8.strict with
  | some text => write (quoted '"' text.toList)
  | none => fail .invalid

structure Nested where
  path : (inValue : Bool) → Writer Unit
  type : Writer Unit
  constant : (inValue : Bool) → Writer Unit
  -- What values a type is restricted to.
  pattern : Writer Unit
  -- Says whether it has left a list of generic arguments open.
  openPath : Writer Bool

namespace Nested

def exhausted : Nested :=
  ⟨fun _ => part () (fail .tooDeep), part () (fail .tooDeep), fun _ => part () (fail .tooDeep),
    part () (fail .tooDeep), part false (fail .tooDeep)⟩

def genericArgument (nested : Nested) : Writer Unit := part () do
  if ← accepts 'L' then lifetime (← read Reader.integer62)
  else if ← accepts 'K' then nested.constant false
  else nested.type

def crate : Writer Unit := do
  let disambiguator ← read Reader.disambiguator
  let name ← read Reader.identifier
  write name.text
  if disambiguator != 0 then
    write s!"[{String.ofList (Nat.toDigits 16 disambiguator)}]"

def member (nested : Nested) (inValue : Bool) : Writer Unit := do
  let tag ← read Reader.namespaceTag
  nested.path inValue
  if ← isFaulty then write "::"
  let disambiguator ← read Reader.disambiguator
  let name ← read Reader.identifier
  match tag with
  | some tag =>
    let kind := if tag == 'C' then "closure" else if tag == 'S' then "shim" else String.singleton tag
    write "::\x7b"
    write kind
    if !name.isEmpty then
      write ":"
      write name.text
    write s!"#{disambiguator}\x7d"
  | none =>
    if !name.isEmpty then
      write "::"
      write name.text

def implementation (nested : Nested) (hasPath hasTrait : Bool) : Writer Unit := do
  if hasPath then
    let _ ← read Reader.disambiguator
    silently (nested.path false)
  write "<"
  nested.type
  if hasTrait then
    write " as "
    nested.path false
  write ">"

def writePath (nested : Nested) (inValue : Bool) : Writer Unit := part () do
  read (Reader.descend maxDepth)
  match ← read Reader.next with
  | 'C' => crate
  | 'N' => member nested inValue
  | 'M' => implementation nested true false
  | 'X' => implementation nested true true
  | 'Y' => implementation nested false true
  | 'I' =>
    nested.path inValue
    if inValue then write "::"
    write "<"
    let _ ← list (genericArgument nested) ", "
    write ">"
  | 'B' => referred () (nested.path inValue)
  | _ => fail .invalid
  ascend

def writeOpenPath (nested : Nested) : Writer Bool := part false do
  if ← accepts 'B' then referred false nested.openPath
  else if ← accepts 'I' then
    nested.path false
    write "<"
    let _ ← list (genericArgument nested) ", "
    return true
  else
    nested.path false
    return false

def bindingsUpTo (nested : Nested) : (room : Nat) → (isOpen : Bool) → Writer Bool
  | 0, isOpen => return isOpen
  | room + 1, isOpen => do
    if ← accepts 'p' then
      write (if isOpen then ", " else "<")
      let name ← read Reader.identifier
      write name.text
      write " = "
      if ← accepts 'K' then nested.constant false else nested.type
      bindingsUpTo nested room true
    else return isOpen

def dynTrait (nested : Nested) : Writer Unit := part () do
  let isOpen ← nested.openPath
  if ← bindingsUpTo nested (← size) isOpen then write ">"

def abiText (abi : List Char) : String :=
  String.ofList (abi.map fun c => if c == '_' then '-' else c)

def abi? : Writer (Option String) := do
  if ← accepts 'K' then
    if ← accepts 'C' then return some "C"
    else
      let abi ← read Reader.identifier
      if abi.ascii.isEmpty || !abi.punycode.isEmpty then fail .invalid
      else return some (abiText abi.ascii)
  else return none

def functionType (nested : Nested) : Writer Unit := binder do
  let isUnsafe ← accepts 'U'
  let abi ← abi?
  if isUnsafe then write "unsafe "
  match abi with
  | none => pure ()
  | some abi => write s!"extern \"{abi}\" "
  write "fn("
  let _ ← list nested.type ", "
  write ")"
  if !(← accepts 'u') then
    write " -> "
    nested.type

def dynType (nested : Nested) : Writer Unit := do
  write "dyn "
  binder do
    let _ ← list (dynTrait nested) " + "
  if !(← accepts 'L') then fail .invalid
  let bound ← read Reader.integer62
  if bound != 0 then
    write " + "
    lifetime bound

def referenceType (nested : Nested) (isMutable : Bool) : Writer Unit := do
  write "&"
  if ← accepts 'L' then
    let index ← read Reader.integer62
    if index != 0 then
      lifetime index
      write " "
  if isMutable then write "mut "
  nested.type

def writeType (nested : Nested) : Writer Unit := part () do
  if ← accepts 'w' then write "#[splat] "
  let tag ← read Reader.next
  match basicTypes.lookup tag with
  | some name => write name
  | none =>
    read (Reader.descend maxDepth)
    match tag with
    | 'R' => referenceType nested false
    | 'Q' => referenceType nested true
    | 'P' =>
      write "*const "
      nested.type
    | 'O' =>
      write "*mut "
      nested.type
    | 'A' =>
      write "["
      nested.type
      write "; "
      nested.constant true
      write "]"
    | 'S' =>
      write "["
      nested.type
      write "]"
    | 'T' =>
      write "("
      if (← list nested.type ", ") == 1 then write ","
      write ")"
    | 'F' => functionType nested
    | 'D' => dynType nested
    | 'W' =>
      nested.type
      write " is "
      nested.pattern
    | 'B' => referred () nested.type
    | _ =>
      stepBack
      nested.path false
    ascend

def alternativesUpTo (nested : Nested) : (room : Nat) → Writer Unit
  | 0 => return
  | room + 1 => do
    if (← isFaulty) || (← accepts 'E') then return
    write " | "
    nested.pattern
    alternativesUpTo nested room

def writePattern (nested : Nested) : Writer Unit := part () do
  match ← read Reader.next with
  | 'R' =>
    nested.constant false
    write "..="
    nested.constant false
  | 'O' =>
    read (Reader.descend maxDepth)
    nested.pattern
    alternativesUpTo nested (← size)
    ascend
  | 'N' => write "!null"
  | _ => fail .invalid

def braced (inValue : Bool) (body : Writer Unit) : Writer Unit := do
  if !inValue then write "\x7b"
  body
  if !inValue then write "\x7d"

def field (nested : Nested) : Writer Unit := part () do
  let _ ← read Reader.disambiguator
  let name ← read Reader.identifier
  write name.text
  write ": "
  nested.constant true

def construction (nested : Nested) : Writer Unit := do
  nested.path true
  match ← read Reader.next with
  | 'U' => pure ()
  | 'T' =>
    write "("
    let _ ← list (nested.constant true) ", "
    write ")"
  | 'S' =>
    write " \x7b "
    let _ ← list (field nested) ", "
    write " \x7d"
  | _ => fail .invalid

def referenceConstant (nested : Nested) (inValue isMutable : Bool) : Writer Unit := do
  if !isMutable && (← accepts 'e') then string
  else braced inValue do
    write (if isMutable then "&mut " else "&")
    nested.constant true

def character : Writer Unit := do
  match word? (← read Reader.nibbles) with
  | some n => if n.isValidChar then write (quoted '\'' [Char.ofNat n]) else fail .invalid
  | none => fail .invalid

def boolean : Writer Unit := do
  match word? (← read Reader.nibbles) with
  | some 0 => write "false"
  | some 1 => write "true"
  | _ => fail .invalid

def writeConstant (nested : Nested) (inValue : Bool) : Writer Unit := part () do
  let tag ← read Reader.next
  read (Reader.descend maxDepth)
  if "htmyoj".contains tag then integer tag
  else if "aslxni".contains tag then
    if ← accepts 'n' then write "-"
    integer tag
  else
    match tag with
    | 'p' => write "_"
    | 'b' => boolean
    | 'c' => character
    | 'e' => braced inValue do
      write "*"
      string
    | 'R' => referenceConstant nested inValue false
    | 'Q' => referenceConstant nested inValue true
    | 'A' => braced inValue do
      write "["
      let _ ← list (nested.constant true) ", "
      write "]"
    | 'T' => braced inValue do
      write "("
      if (← list (nested.constant true) ", ") == 1 then write ","
      write ")"
    | 'V' => braced inValue (construction nested)
    | 'B' => referred () (nested.constant inValue)
    | _ => fail .invalid
  ascend

def ofDepth : (depth : Nat) → Nested
  | 0 => exhausted
  | depth + 1 =>
    let inner := ofDepth depth
    ⟨writePath inner, writeType inner, writeConstant inner, writePattern inner,
      writeOpenPath inner⟩

end Nested

def maxLevels : Nat := 2 * maxDepth + 2

def path (inValue : Bool) : Writer Unit := (Nested.ofDepth maxLevels).path inValue

end Writer

def start (symbol : List Char) : State :=
  ⟨.ok ⟨symbol.toArray, 0, 0⟩, [], Writer.maxRoom, false, 0⟩

def checked (state : State) : Option State :=
  let (_, state) := ((Writer.silently (Writer.path false)).run).run state
  match state.cursor with
  | .ok _ => some state
  | .error _ => none

def body? (symbol : List Char) : Option (List Char) :=
  (["_R", "R", "__R"].find? fun start =>
    start.toList.isPrefixOf symbol && start.length < symbol.length).map fun start =>
      symbol.drop start.length

def startsPath (symbol : List Char) : Bool := symbol.head?.any Char.isUpper

def rest (state : State) : List Char :=
  match state.cursor with
  | .ok cursor => cursor.symbol.toList.drop cursor.next
  | .error _ => []

def ending? (body : List Char) : Option (List Char) := do
  let after ← checked (start body)
  if startsPath (rest after) then
    return rest (← checked after)
  else return rest after

def text? (symbol : List Char) : Option (String × List Char) := do
  let body ← body? symbol
  if !startsPath body || !body.all (·.toNat < 128) then none
  let ending ← ending? body
  let (result, state) := ((Writer.path true).run).run (start body)
  let text := String.ofList state.written.reverse
  match result with
  | .error .full => return (text ++ "\x7bsize limit reached\x7d", ending)
  | _ => return (text, ending)

end SourceScope.CratePath
