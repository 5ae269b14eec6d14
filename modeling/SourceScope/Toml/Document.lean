import SourceScope.Toml.Scalar

set_option autoImplicit false

namespace SourceScope.Toml

def depthLimit : Nat := 80

def isBare (c : Char) : Bool := c.isAlphanum || c == '_' || c == '-'

def simpleKey : Parser String := fun input =>
  match input with
  | '"' :: _ | '\'' :: _ => (quotedText input).map fun (cs, rest) => (String.ofList cs, rest)
  | _ =>
    let name := input.takeWhile isBare
    if name.isEmpty then none else some (String.ofList name, input.drop name.length)

def dottedKey : (parts : Nat) → Parser (List String)
  | 0, _ => none
  | parts + 1, input => do
    let (name, rest) ← simpleKey (skipBlanks input)
    match skipBlanks rest with
    | '.' :: rest =>
      let (names, rest) ← dottedKey parts rest
      return (name :: names, rest)
    | rest => return ([name], rest)

def key : Parser (List String) := dottedKey (depthLimit - 1)

def tableOf (pairs : List (List String × Value)) : Option Value := do
  let add (entries : Entries) (pair : List String × Value) : Option Entries := do
    let name ← pair.1.getLast?
    let path := pair.1.dropLast
    return (← changeAt .dotted true path (addKey (!path.isEmpty) name pair.2) .braces entries).2
  return .table .braces (← pairs.foldlM add [])

mutual

def value (fuel depth : Nat) (input : List Char) : Option (Value × List Char) :=
  match fuel with
  | 0 => none
  | fuel + 1 =>
    match input with
    | '"' :: _ | '\'' :: _ =>
      (string input).map fun (cs, rest) => (.text (String.ofList cs), rest)
    | '[' :: rest =>
      match depth with
      | 0 => none
      | depth + 1 => items fuel depth [] (skipLines rest)
    | '\x7b' :: rest =>
      match depth with
      | 0 => none
      | depth + 1 =>
        match skipBlanks rest with
        | '\x7d' :: rest => some (.table .braces [], rest)
        | rest => pairs fuel depth [] rest
    | 't' :: 'r' :: 'u' :: 'e' :: rest => some (.boolean true, rest)
    | 'f' :: 'a' :: 'l' :: 's' :: 'e' :: rest => some (.boolean false, rest)
    | _ => numberOrTime input

def items (fuel depth : Nat) (found : List Value) (input : List Char) :
    Option (Value × List Char) :=
  match fuel with
  | 0 => none
  | fuel + 1 =>
    match input with
    | ']' :: rest => some (.array found.reverse, rest)
    | _ =>
      match value fuel depth input with
      | none => none
      | some (item, rest) =>
        match skipLines rest with
        | ',' :: rest => items fuel depth (item :: found) (skipLines rest)
        | ']' :: rest => some (.array (item :: found).reverse, rest)
        | _ => none

def pairs (fuel depth : Nat) (found : List (List String × Value)) (input : List Char) :
    Option (Value × List Char) :=
  match fuel with
  | 0 => none
  | fuel + 1 =>
    match key input with
    | some (names, '=' :: rest) =>
      match value fuel depth (skipBlanks rest) with
      | none => none
      | some (item, rest) =>
        let found := (names, item) :: found
        match skipBlanks rest with
        | ',' :: rest => pairs fuel depth found (skipBlanks rest)
        | '\x7d' :: rest => (tableOf found.reverse).map fun table => (table, rest)
        | _ => none
    | _ => none

end

structure Reading where
  entries : Entries
  header : List String

def Reading.change (r : Reading) (change : Change) : Option Reading := do
  return { r with entries := (← change .header r.entries).2 }

def pairLine (r : Reading) (input : List Char) : Option (Reading × List Char) := do
  let (names, '=' :: rest) ← key input | none
  let (item, rest) ← value (2 * rest.length + 2) (depthLimit - 1) (skipBlanks rest)
  let name ← names.getLast?
  return (← r.change (addPair r.header names.dropLast name item), rest)

def headerLine (r : Reading) (input : List Char) : Option (Reading × List Char) := do
  let (doubled, rest) :=
    match input with
    | '[' :: rest => (true, rest)
    | rest => (false, rest)
  let (names, ']' :: rest) ← key rest | none
  let name ← names.getLast?
  let open_ := if doubled then openTables name else openTable name
  let r ← r.change (changeAt .implied false names.dropLast open_)
  if doubled then
    let ']' :: rest := rest | none
    return ({ r with header := names }, rest)
  else return ({ r with header := names }, rest)

def line (r : Reading) (input : List Char) : Option (Reading × List Char) :=
  match skipBlanks input with
  | [] | '#' :: _ | '\n' :: _ | '\r' :: _ => some (r, input)
  | '[' :: rest => headerLine r rest
  | rest => pairLine r rest

def lines (r : Reading) (input : List Char) : Option Reading :=
  if input.isEmpty then some r
  else
    match line r input with
    | none => none
    | some (r, rest) =>
      match endOfLine rest with
      | none => none
      | some (_, rest) => if _ : rest.length < input.length then lines r rest else none
termination_by input.length

def parse? (text : String) : Option Entries :=
  let input :=
    match text.toList with
    | '\uFEFF' :: rest => rest
    | rest => rest
  (lines ⟨[], []⟩ input).map (·.entries)

end SourceScope.Toml
