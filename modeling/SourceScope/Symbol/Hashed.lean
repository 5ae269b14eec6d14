import SourceScope.Text.Quoted

set_option autoImplicit false

namespace SourceScope.Hashed

def digits (symbol : List Char) : List Char × List Char :=
  (symbol.takeWhile Char.isDigit, symbol.dropWhile Char.isDigit)

def valueOf (digits : List Char) : Nat :=
  digits.foldl (fun n c => n * 10 + (c.toNat - '0'.toNat)) 0

def elementsUpTo : (count : Nat) → List Char → Option (List (List Char) × List Char)
  | 0, _ => none
  | _ + 1, [] => none
  | _ + 1, 'E' :: rest => some ([], rest)
  | count + 1, c :: rest => do
    if !c.isDigit then none
    let (digits, rest) := digits (c :: rest)
    let length := valueOf digits
    if rest.length ≤ length then none
    let (elements, after) ← elementsUpTo count (rest.drop length)
    return (rest.take length :: elements, after)

def elements (symbol : List Char) : Option (List (List Char) × List Char) :=
  elementsUpTo (symbol.length + 1) symbol

def escapes : List (String × Char) := [
  ("SP", '@'), ("BP", '*'), ("RF", '&'), ("LT", '<'), ("GT", '>'), ("LP", '('), ("RP", ')'),
  ("C", ',')]

def isControl (n : Nat) : Bool := n < 0x20 || (0x7F ≤ n && n < 0xA0)

def hexValue (digits : List Char) : Nat :=
  digits.foldl (fun n c => n * 16 + (if c.isDigit then c.toNat - '0'.toNat else c.toNat - 'a'.toNat + 10)) 0

def isLowerHex (c : Char) : Bool := c.isDigit || ('a' ≤ c && c ≤ 'f')

def unescape (escape : List Char) : Option Char :=
  match escapes.lookup (String.ofList escape) with
  | some c => some c
  | none =>
    match escape with
    | 'u' :: digits =>
      let n := hexValue digits
      if digits.isEmpty || !digits.all isLowerHex || !n.isValidChar || isControl n then none
      else some (Char.ofNat n)
    | _ => none

def elementUpTo : (count : Nat) → List Char → List Char
  | 0, rest => rest
  | _ + 1, [] => []
  | count + 1, '.' :: '.' :: rest => ':' :: ':' :: elementUpTo count rest
  | count + 1, '$' :: rest =>
    let escape := rest.takeWhile (· != '$')
    match rest.dropWhile (· != '$') with
    | [] => '$' :: rest
    | _ :: after =>
      match unescape escape with
      | none => '$' :: rest
      | some c => c :: elementUpTo count after
  | count + 1, c :: rest => c :: elementUpTo count rest

def element (characters : List Char) : List Char :=
  let characters := if ['_', '$'].isPrefixOf characters then characters.drop 1 else characters
  elementUpTo characters.length characters

def body? (symbol : List Char) : Option (List Char) :=
  (["_ZN", "ZN", "__ZN"].find? fun start => start.toList.isPrefixOf symbol).map fun start =>
    symbol.drop start.length

def text? (symbol : List Char) : Option (String × List Char) := do
  let body ← body? symbol
  if !body.all (·.toNat < 128) then none
  let (elements, rest) ← elements body
  return ("::".intercalate (elements.map fun e => String.ofList (element e)), rest)

end SourceScope.Hashed
