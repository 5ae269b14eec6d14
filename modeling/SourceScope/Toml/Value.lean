set_option autoImplicit false

namespace SourceScope.Toml

inductive Origin where
  -- Named by a header of its own, or the document itself.
  | header
  -- Named only as a part of longer headers.
  | implied
  -- Named as a part of dotted keys.
  | dotted
  -- Written between braces.
  | braces
deriving DecidableEq, Repr

inductive Value where
  | integer (n : Int)
  | boolean (b : Bool)
  | text (s : String)
  | float
  | time
  | array (items : List Value)
  -- Tables that repeated headers of one name add up to, the latest first.
  | tables (items : List Value)
  | table (origin : Origin) (entries : List (String × Value))
deriving Repr, Inhabited

abbrev Entries := List (String × Value)

namespace Entries

def get? (entries : Entries) (key : String) : Option Value := entries.lookup key

def put (entries : Entries) (key : String) (value : Value) : Entries :=
  if entries.any (·.1 == key) then
    entries.map fun (k, v) => if k == key then (k, value) else (k, v)
  else entries ++ [(key, value)]

end Entries

abbrev Change := Origin → Entries → Option (Origin × Entries)

/-- Changes the table that `key` names, which `fresh` provides if there is none. Of tables under a
repeated header, it is the latest. -/
def changeTable (fresh : Origin) (dotted : Bool) (key : String) (change : Change)
    (entries : Entries) : Option Entries := do
  let changed (origin : Origin) (inner : Entries) : Option Value := do
    let (origin, inner) ← change origin inner
    return .table origin inner
  match entries.get? key with
  | none => return entries.put key (← changed fresh [])
  | some (.table .braces _) => none
  | some (.table .header inner) =>
    if dotted then none else return entries.put key (← changed .header inner)
  | some (.table origin inner) => return entries.put key (← changed origin inner)
  | some (.tables (.table origin inner :: others)) =>
    return entries.put key (.tables ((← changed origin inner) :: others))
  | some _ => none

def changeAt (fresh : Origin) (dotted : Bool) : List String → Change → Change
  | [], change => change
  | key :: path, change => fun origin entries => do
    return (origin, ← changeTable fresh dotted key (changeAt fresh dotted path change) entries)

def addKey (throughDots : Bool) (key : String) (value : Value) : Change := fun origin entries =>
  if (origin == .dotted) != throughDots then none
  else if (entries.get? key).isSome then none
  else some (origin, entries ++ [(key, value)])

def addPair (header : List String) (path : List String) (key : String) (value : Value) : Change :=
  changeAt .implied false header
    (changeAt .dotted true path (addKey (!path.isEmpty) key value))

def openTable (key : String) : Change := fun origin entries =>
  match entries.get? key with
  | none => some (origin, entries ++ [(key, .table .header [])])
  | some (.table .implied inner) => some (origin, entries.put key (.table .header inner))
  | some _ => none

def openTables (key : String) : Change := fun origin entries =>
  match entries.get? key with
  | none => some (origin, entries ++ [(key, .tables [.table .header []])])
  | some (.tables items) => some (origin, entries.put key (.tables (.table .header [] :: items)))
  | some _ => none

end SourceScope.Toml
