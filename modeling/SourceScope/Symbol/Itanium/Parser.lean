import SourceScope.Symbol.Itanium.Node

set_option autoImplicit false

namespace SourceScope.Itanium

structure Table where
  -- What back references stand for.
  entries : Array Node
  -- Whether the type of a conversion operator is being read.
  inConversion : Bool

inductive Outcome (α : Type) where
  | found (value : α) (rest : List Char)
  | refused
  | tooDeep

def Parser (α : Type) : Type := List Char → Table → Outcome α × Table

namespace Parser

instance : Monad Parser where
  pure a := fun input table => (.found a input, table)
  bind p f := fun input table =>
    match p input table with
    | (.found a rest, table) => f a rest table
    | (.refused, table) => (.refused, table)
    | (.tooDeep, table) => (.tooDeep, table)

def fail {α : Type} : Parser α := fun _ table => (.refused, table)

def tooDeep {α : Type} : Parser α := fun _ table => (.tooDeep, table)

def orElse {α : Type} (p q : Parser α) : Parser α := fun input table =>
  match p input table with
  | (.refused, table) => q input table
  | found => found

def firstOf {α : Type} : List (Parser α) → Parser α
  | [] => fail
  | p :: rest => orElse p (firstOf rest)

def attempt {α : Type} (p : Parser α) : Parser (Option α) := orElse (some <$> p) (pure none)

def branch {α β : Type} (p : Parser α) (found : α → Parser β) (otherwise : Parser β) :
    Parser β := do
  match ← attempt p with
  | some a => found a
  | none => otherwise

def manyUpTo {α : Type} (p : Parser α) : (count : Nat) → Parser (List α)
  | 0 => pure []
  | count + 1 => do
    match ← attempt p with
    | none => return []
    | some a => return a :: (← manyUpTo p count)

def many {α : Type} (p : Parser α) : Parser (List α) := fun input =>
  manyUpTo p (input.length + 1) input

def manyOne {α : Type} (p : Parser α) : Parser (List α) := do return (← p) :: (← many p)

def iterateUpTo {α : Type} (step : α → Parser (Option α)) : (count : Nat) → α → Parser α
  | 0, a => pure a
  | count + 1, a => do
    match ← step a with
    | none => return a
    | some next => iterateUpTo step count next

def iterate {α : Type} (step : α → Parser (Option α)) (a : α) : Parser α := fun input =>
  iterateUpTo step (input.length + 1) a input

def peek : Parser (Option Char) := fun input table => (.found input.head? input, table)

def place : Parser Nat := fun input table => (.found input.length input, table)

def expect (text : String) : Parser Unit := fun input table =>
  if text.toList.isPrefixOf input then (.found () (input.drop text.length), table)
  else (.refused, table)

def accepts (text : String) : Parser Bool := do return (← attempt (expect text)).isSome

def oneOf {α : Type} (vocabulary : List (String × α)) : Parser α :=
  firstOf (vocabulary.map fun (text, a) => do expect text; return a)

def takeWhile (p : Char → Bool) : Parser (List Char) := fun input table =>
  (.found (input.takeWhile p) (input.dropWhile p), table)

def take (count : Nat) : Parser (List Char) := fun input table =>
  if input.length < count then (.refused, table)
  else (.found (input.take count) (input.drop count), table)

def digitValue (c : Char) : Nat := if c.isDigit then c.toNat - '0'.toNat else c.toNat - 'A'.toNat + 10

def number (base : Nat) : Parser Nat := do
  let digits ← takeWhile fun c => (c.isDigit || c.isUpper) && digitValue c < base
  match digits with
  | [] => fail
  | '0' :: _ :: _ => fail
  | _ =>
    let n := digits.foldl (fun n c => n * base + digitValue c) 0
    if n ≤ Int64.maxValue.toInt then return n else fail

def integer : Parser Int := do
  if ← accepts "n" then return -((← number 10 : Nat) : Int) else return (← number 10 : Nat)

def digit : Parser Nat := do
  match ← take 1 with
  | [c] => if c.isDigit then return digitValue c else fail
  | _ => fail

def note (node : Node) : Parser Node := fun input table =>
  (.found node input, { table with entries := table.entries.push node })

def entry (index : Nat) : Parser Node := fun input table =>
  match table.entries[index]? with
  | some node => (.found node input, table)
  | none => (.refused, table)

def lookahead {α : Type} (p : Parser α) : Parser (Option (List Char)) := fun input table =>
  match (p input table).1 with
  | .found _ rest => (.found (some rest) input, table)
  | .refused => (.found none input, table)
  | .tooDeep => (.tooDeep, table)

def isInConversion : Parser Bool := fun input table => (.found table.inConversion input, table)

def inConversion {α : Type} (p : Parser α) : Parser α := fun input table =>
  let (found, after) := p input { table with inConversion := true }
  (found, { after with inConversion := table.inConversion })

end Parser

end SourceScope.Itanium
