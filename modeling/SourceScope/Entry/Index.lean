import SourceScope.Entry.Basic
import SourceScope.Error

set_option autoImplicit false

namespace SourceScope

structure EntryIndex where
  -- The entries, the latest first.
  pushed : List Entry
  -- The units by ascending offset.
  units : List CompileUnit
  -- Depth and offset of the latest entry and of those around it, innermost first.
  open_ : List (Nat × Nat)
  -- The entries right below an offset, in the order in which they were met.
  below : List (Nat × List Nat)
deriving Repr

namespace EntryIndex

def empty : EntryIndex := ⟨[], [], [], []⟩

def unit? (index : EntryIndex) (offset : Nat) : Option CompileUnit :=
  index.units.find? (·.offset == offset)

def entry? (index : EntryIndex) (offset : Nat) : Option Entry :=
  index.pushed.find? (·.offset == offset)

def insertUnit (unit : CompileUnit) : List CompileUnit → List CompileUnit
  | [] => [unit]
  | first :: rest =>
    if unit.offset < first.offset then unit :: first :: rest
    else if unit.offset = first.offset then unit :: rest
    else first :: insertUnit unit rest

def pushUnit (index : EntryIndex) (unit : CompileUnit) : EntryIndex :=
  { index with units := insertUnit unit index.units, open_ := [] }

def addBelow (parent child : Nat) : List (Nat × List Nat) → List (Nat × List Nat)
  | [] => [(parent, [child])]
  | first :: rest =>
    if first.1 = parent then (parent, first.2 ++ [child]) :: rest
    else first :: addBelow parent child rest

/-- Adds an entry of a unit that is known. Its parent is the latest entry that is less deep. -/
def tryPush (index : EntryIndex) (unit : Nat) (entry : Entry) :
    EntryIndex × Except ModelError Unit :=
  match index.unit? unit with
  | none => (index, .error (.unknownUnit entry.offset unit))
  | some _ =>
    let around := index.open_.dropWhile fun (depth, _) => entry.depth ≤ depth
    let parent := around.head?.map (·.2)
    ({ index with
      pushed := { entry with unit, parent } :: index.pushed
      open_ := (entry.depth, entry.offset) :: around
      below :=
        match parent with
        | none => index.below
        | some offset => addBelow offset entry.offset index.below }, .ok ())

def pushEntry (index : EntryIndex) (unit : Nat) (entry : Entry) : Except ModelError EntryIndex :=
  let (next, outcome) := index.tryPush unit entry
  outcome.map fun _ => next

def size (index : EntryIndex) : Nat := index.pushed.length

def entries (index : EntryIndex) : List Entry :=
  index.pushed.reverse.filterMap fun e => index.entry? e.offset

def children (index : EntryIndex) (offset : Nat) : List Nat :=
  (index.below.lookup offset).getD []

def ancestorsFrom (index : EntryIndex) : (steps : Nat) → Option Nat → List Entry
  | 0, _ => []
  | steps + 1, offset =>
    match offset.bind index.entry? with
    | none => []
    | some entry => entry :: ancestorsFrom index steps entry.parent

/-- The entries around an entry, innermost first. Where an offset was pushed again an entry can be
around itself. Then the walk outward has no end, and this is no more than the start of it; a search
that comes to an end comes to it within as many steps as there are entries. -/
def ancestors (index : EntryIndex) (offset : Nat) : List Entry :=
  index.ancestorsFrom index.size ((index.entry? offset).bind (·.parent))

def originOf? (index : EntryIndex) (entry : Entry) : Option Entry :=
  let offset :=
    match entry.reference? Attr.abstractOrigin with
    | some offset => some offset
    | none => entry.reference? Attr.specification
  offset.bind index.entry?

def unitOf (index : EntryIndex) (offset : Nat) : Except ModelError CompileUnit :=
  let unit :=
    match index.entry? offset with
    | some entry => entry.unit
    | none => offset
  match index.unit? unit with
  | some found => .ok found
  | none => .error (.unknownUnit offset unit)

end EntryIndex

end SourceScope
