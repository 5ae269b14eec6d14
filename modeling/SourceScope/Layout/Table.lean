import SourceScope.Layout.Type

set_option autoImplicit false

namespace SourceScope

structure TypeTable where
  slots : Array (Option SourceType)
  -- Numbers by the offset of the defining entry.
  numbers : List (Nat × TypeId)
deriving Repr

namespace TypeTable

def empty : TypeTable := ⟨#[], []⟩

def get? (table : TypeTable) (id : TypeId) : Option SourceType := (table.slots[id]?).join

def number? (table : TypeTable) (offset : Nat) : Option TypeId := table.numbers.lookup offset

def idAt? (table : TypeTable) (offset : Nat) : Option TypeId :=
  match table.number? offset with
  | none => none
  | some id => if (table.get? id).isSome then some id else none

def at? (table : TypeTable) (offset : Nat) : Option SourceType :=
  (table.number? offset).bind table.get?

def allocate (table : TypeTable) (offset : Nat) : TypeId × TypeTable :=
  match table.number? offset with
  | some id => (id, table)
  | none =>
    (table.slots.size, ⟨table.slots.push none, (offset, table.slots.size) :: table.numbers⟩)

def define (table : TypeTable) (offset : Nat) (type : SourceType) : TypeTable :=
  let (id, table) := table.allocate offset
  { table with slots := table.slots.setIfInBounds id (some type) }

def toList (table : TypeTable) : List (TypeId × SourceType) :=
  (table.slots.toList.mapIdx fun i slot => slot.map (i, ·)).filterMap id

def size (table : TypeTable) : Nat := table.toList.length

def find? (table : TypeTable) (name : String) : Option TypeId :=
  (table.toList.find? (·.2.name == name)).map (·.1)

end TypeTable

end SourceScope
