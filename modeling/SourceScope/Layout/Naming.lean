import SourceScope.Layout.Resolve

set_option autoImplicit false

namespace SourceScope

namespace TypeTable

def maxNameLinks : Nat := 8

def dropDangling (table : TypeTable) : TypeTable :=
  { table with slots := table.slots.map fun slot => slot.map fun type =>
      match type.shape with
      | .pointer (some target) =>
        if (table.get? target).isNone then { type with shape := .pointer none } else type
      | _ => type }

def qualifierName (tag : Nat) : String := if tag = Tag.constType then "const" else "volatile"

def displayName (index : EntryIndex) (table : TypeTable) : (links : Nat) → TypeId → String
  | 0, _ => "..."
  | links + 1, id =>
    match table.get? id with
    | none => "void"
    | some type =>
      match index.entry? type.offset with
      | none => type.name
      | some entry =>
        if entry.tag = Tag.pointerType then
          match type.shape with
          | .pointer (some target) => displayName index table links target ++ " *"
          | .pointer none => "void *"
          | _ => type.name
        else if entry.tag = Tag.constType ∨ entry.tag = Tag.volatileType then
          match entry.type?.bind table.number? with
          | none => type.name
          | some target =>
            let name := displayName index table links target
            if ((table.get? target).map (·.isPointer)).getD false then
              name ++ " " ++ qualifierName entry.tag
            else qualifierName entry.tag ++ " " ++ name
        else type.name

def withFinalNames (index : EntryIndex) (table : TypeTable) : TypeTable :=
  { table with slots := table.slots.mapIdx fun id slot => slot.map fun type =>
      { type with name := displayName index table maxNameLinks id } }

def resolve (settings : Settings) (index : EntryIndex) : TypeTable :=
  withFinalNames index (dropDangling (draft settings index))

end TypeTable

end SourceScope
