set_option autoImplicit false

namespace SourceScope

namespace PartitionPoint

/-- Narrows `size` places from `base` on down to one. Elements at or before `base` meet the
condition, those past the places do not. -/
def narrow {α : Type} (below : α → Bool) (items : Array α) (base size : Nat) : Nat :=
  if _ : size ≤ 1 then base
  else
    let half := size / 2
    let middle := base + half
    match items[middle]? with
    | some item => narrow below items (if below item then middle else base) (size - half)
    | none => base
termination_by size
decreasing_by omega

end PartitionPoint

def partitionPoint {α : Type} (below : α → Bool) (items : Array α) : Nat :=
  let base := PartitionPoint.narrow below items 0 items.size
  match items[base]? with
  | some item => if below item then base + 1 else base
  | none => 0

end SourceScope
