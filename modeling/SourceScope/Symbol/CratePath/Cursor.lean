import SourceScope.Symbol.Punycode

set_option autoImplicit false

namespace SourceScope.CratePath

inductive Fault where
  | invalid
  | tooDeep
deriving DecidableEq, Repr

namespace Fault

def message : Fault → String
  | invalid => "\x7binvalid syntax\x7d"
  | tooDeep => "\x7brecursion limit reached\x7d"

end Fault

structure Cursor where
  symbol : Array Char
  next : Nat
  depth : Nat

structure Identifier where
  ascii : List Char
  punycode : List Char
deriving DecidableEq, Repr

namespace Identifier

def isEmpty (name : Identifier) : Bool := name.ascii.isEmpty && name.punycode.isEmpty

def maxDecoded : Nat := 128

def text (name : Identifier) : String :=
  if name.punycode.isEmpty then String.ofList name.ascii
  else
    match Punycode.decode? name.ascii name.punycode with
    | some decoded => if decoded.length ≤ maxDecoded then String.ofList decoded else encoded
    | none => encoded
where
  encoded : String :=
    let ascii := if name.ascii.isEmpty then [] else name.ascii ++ ['-']
    "punycode\x7b" ++ String.ofList (ascii ++ name.punycode) ++ "\x7d"

end Identifier

abbrev Reader (α : Type) : Type := StateT Cursor (Except Fault) α

namespace Reader

def peek : Reader (Option Char) := do
  let cursor ← get
  return cursor.symbol[cursor.next]?

def next : Reader Char := do
  match ← peek with
  | none => throw .invalid
  | some c =>
    modify fun cursor => { cursor with next := cursor.next + 1 }
    return c

def accepts (c : Char) : Reader Bool := do
  if (← peek) == some c then
    let _ ← next
    return true
  else return false

def upToUnderscore : Reader (List Char) := do
  let cursor ← get
  let rest := cursor.symbol.toList.drop cursor.next
  let word := rest.takeWhile (· != '_')
  if word.length == rest.length then throw .invalid
  set { cursor with next := cursor.next + word.length + 1 }
  return word

def digit62? (c : Char) : Option Nat :=
  if c.isDigit then some (c.toNat - '0'.toNat)
  else if c.isLower then some (c.toNat - 'a'.toNat + 10)
  else if c.isUpper then some (c.toNat - 'A'.toNat + 36)
  else none

def bounded (n : Nat) : Reader Nat := if n < UInt64.size then return n else throw .invalid

def integer62 : Reader Nat := do
  match ← upToUnderscore with
  | [] => return 0
  | digits =>
    match digits.mapM digit62? with
    | none => throw .invalid
    | some digits => bounded (digits.foldl (fun n d => n * 62 + d) 0 + 1)

def optionalInteger62 (tag : Char) : Reader Nat := do
  if ← accepts tag then bounded ((← integer62) + 1) else return 0

def disambiguator : Reader Nat := optionalInteger62 's'

def namespaceTag : Reader (Option Char) := do
  let c ← next
  if c.isUpper then return some c
  else if c.isLower then return none
  else throw .invalid

def descend (maxDepth : Nat) : Reader Unit := do
  let cursor ← get
  if maxDepth ≤ cursor.depth then throw .tooDeep
  set { cursor with depth := cursor.depth + 1 }

def backReference (maxDepth : Nat) : Reader Cursor := do
  let start := (← get).next - 1
  let place ← integer62
  if start ≤ place then throw .invalid
  let cursor ← get
  if maxDepth ≤ cursor.depth then throw .tooDeep
  return { cursor with next := place, depth := cursor.depth + 1 }

def length : Reader Nat := do
  let cursor ← get
  let digits := (cursor.symbol.toList.drop cursor.next).takeWhile Char.isDigit
  let digits := if digits.head? == some '0' then ['0'] else digits
  if digits.isEmpty then throw .invalid
  set { cursor with next := cursor.next + digits.length }
  return digits.foldl (fun n c => n * 10 + (c.toNat - '0'.toNat)) 0

def splitPunycode (name : List Char) : Identifier :=
  let punycode := (name.reverse.takeWhile (· != '_')).reverse
  if punycode.length == name.length then ⟨[], name⟩
  else ⟨name.take (name.length - punycode.length - 1), punycode⟩

def identifier : Reader Identifier := do
  let isPunycode ← accepts 'u'
  let length ← length
  let _ ← accepts '_'
  let cursor ← get
  if cursor.symbol.size < cursor.next + length then throw .invalid
  set { cursor with next := cursor.next + length }
  let name := (cursor.symbol.toList.drop cursor.next).take length
  if !isPunycode then return ⟨name, []⟩
  else
    let name := splitPunycode name
    if name.punycode.isEmpty then throw .invalid else return name

def isNibble (c : Char) : Bool := c.isDigit || ('a' ≤ c && c ≤ 'f')

def nibbles : Reader (List Char) := do
  let word ← upToUnderscore
  if word.all isNibble then return word else throw .invalid

end Reader

end SourceScope.CratePath
