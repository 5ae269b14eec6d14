import SourceScope.Text.Hex

set_option autoImplicit false

namespace SourceScope.Toml

def isControl (c : Char) : Bool := c.toNat ≤ 0x1f || c.toNat == 0x7f

def longestRun (of : Char) (current : Nat) : List Char → Nat
  | [] => current
  | c :: rest =>
    if c = of then longestRun of (current + 1) rest else max current (longestRun of 0 rest)

structure Quotes where
  mark : Char
  isTripled : Bool
deriving DecidableEq, Repr

namespace Quotes

def text (q : Quotes) : List Char := List.replicate (if q.isTripled then 3 else 1) q.mark

def longestInside (q : Quotes) : Nat := if q.isTripled then 2 else 0

def showPlainly (cs : List Char) (q : Quotes) : Bool :=
  cs.all (fun c => !isControl c || c == '\t' || (c == '\n' && q.isTripled)) &&
    longestRun q.mark 0 cs ≤ q.longestInside && (q.mark == '\'' || !cs.contains '\\')

def choose (cs : List Char) : Quotes :=
  let plain : List Quotes := [⟨'"', false⟩, ⟨'\'', false⟩, ⟨'"', true⟩, ⟨'\'', true⟩]
  (plain.find? (showPlainly cs)).getD ⟨'"', cs.contains '\n'⟩

end Quotes

def escapeChar (c : Char) : List Char :=
  match c with
  | '\x08' => ['\\', 'b']
  | '\t' => ['\\', 't']
  | '\n' => ['\\', 'n']
  | '\x0c' => ['\\', 'f']
  | '\r' => ['\\', 'r']
  | '"' => ['\\', '"']
  | '\\' => ['\\', '\\']
  | c => if isControl c then ['\\', 'u'] ++ upper (Hex.padded 4 c.toNat) else [c]
where
  upper (s : String) : List Char := s.toList.map Char.toUpper

def escapeFrom (q : Quotes) (marks : Nat) : List Char → List Char
  | [] => []
  | c :: rest =>
    if c = '"' ∧ marks < q.longestInside then c :: escapeFrom q (marks + 1) rest
    else if c = '\n' ∧ q.isTripled then c :: escapeFrom q 0 rest
    else escapeChar c ++ escapeFrom q 0 rest

def quoted (s : String) : String :=
  let cs := s.toList
  let q := Quotes.choose cs
  String.ofList (q.text ++ (if cs.contains '\n' then ['\n'] else []) ++
    (if q.mark = '"' then escapeFrom q 0 cs else cs) ++ q.text)

def quotedArray (items : List String) : String :=
  match items with
  | [] => "[]"
  | [item] => "[" ++ quoted item ++ "]"
  | items => "[\n" ++ String.join (items.map fun item => "    " ++ quoted item ++ ",\n") ++ "]"

end SourceScope.Toml
