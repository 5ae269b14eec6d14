import SourceScope.Proofs.Entry.Nesting

set_option autoImplicit false

namespace SourceScope

inductive Forest where
  | nil
  | cons (root : Entry) (parts rest : Forest)
deriving DecidableEq

namespace Forest

def entries : Forest → List Entry
  | nil => []
  | cons root parts rest => root :: (parts.entries ++ rest.entries)

def offsets (forest : Forest) : List Nat := forest.entries.map (·.offset)

def roots : Forest → List Entry
  | nil => []
  | cons root _ rest => root :: rest.roots

def append : Forest → Forest → Forest
  | nil, after => after
  | cons root parts rest, after => cons root parts (rest.append after)

def preorder (depth : Nat) : Forest → List Entry
  | nil => []
  | cons root parts rest =>
    { root with depth } :: (parts.preorder (depth + 1) ++ rest.preorder depth)

/-- The forest with the unit, the depth and the parent of each entry filled in. -/
def placed (unit depth : Nat) (parent : Option Nat) : Forest → Forest
  | nil => nil
  | cons root parts rest =>
    cons { root with unit, depth, parent } (parts.placed unit (depth + 1) (some root.offset))
      (rest.placed unit depth parent)

def ofUnits : List (CompileUnit × Forest) → Forest
  | [] => nil
  | (unit, forest) :: rest => (forest.placed unit.offset 0 none).append (ofUnits rest)

def Parented (parent : Option Nat) : Forest → Prop
  | nil => True
  | cons root parts rest =>
    root.parent = parent ∧ parts.Parented (some root.offset) ∧ rest.Parented parent

theorem entries_append (forest after : Forest) :
    (forest.append after).entries = forest.entries ++ after.entries := by
  induction forest with
  | nil => rfl
  | cons root parts rest _ ih => simp [append, entries, ih]

theorem Parented.append {forest after : Forest} {parent : Option Nat}
    (parented : forest.Parented parent) (others : after.Parented parent) :
    (forest.append after).Parented parent := by
  induction forest with
  | nil => exact others
  | cons root parts rest _ ih =>
    obtain ⟨same, under, behind⟩ := parented
    exact ⟨same, under, ih behind⟩

theorem placed_parented (forest : Forest) (unit depth : Nat) (parent : Option Nat) :
    (forest.placed unit depth parent).Parented parent := by
  induction forest generalizing depth parent with
  | nil => trivial
  | cons root parts rest under behind => exact ⟨rfl, under _ _, behind _ _⟩

theorem ofUnits_parented (units : List (CompileUnit × Forest)) : (ofUnits units).Parented none := by
  induction units with
  | nil => trivial
  | cons first rest ih => exact (placed_parented first.2 first.1.offset 0 none).append ih

theorem le_depth_of_mem_placed {forest : Forest} {unit depth : Nat} {parent : Option Nat}
    {entry : Entry} (member : entry ∈ (forest.placed unit depth parent).entries) :
    depth ≤ entry.depth := by
  induction forest generalizing depth parent with
  | nil => cases member
  | cons root parts rest under behind =>
    simp only [placed, entries, List.mem_cons, List.mem_append] at member
    rcases member with rfl | below | after
    · exact Nat.le_refl depth
    · exact Nat.le_of_succ_le (under below)
    · exact behind after

theorem filter_parent {forest : Forest} {parent : Option Nat} (parented : forest.Parented parent)
    {around : Option Nat} (outside : ∀ offset ∈ around, offset ∉ forest.offsets) :
    forest.entries.filter (·.parent = around) = if parent = around then forest.roots else [] := by
  induction forest generalizing parent with
  | nil => simp [entries, roots]
  | cons root parts rest under behind =>
    obtain ⟨same, above, others⟩ := parented
    simp only [offsets, entries, List.map_cons, List.map_append, List.mem_cons, List.mem_append,
      not_or] at outside
    have notRoot : ¬some root.offset = around := by
      rintro rfl
      exact (outside root.offset rfl).1 rfl
    have inParts := under above fun offset member => (outside offset member).2.1
    have inRest := behind others fun offset member => (outside offset member).2.2
    rw [if_neg notRoot] at inParts
    simp only [entries, roots, List.filter_cons, List.filter_append, inParts, inRest, same,
      List.nil_append, decide_eq_true_eq]
    split <;> rfl

end Forest

namespace EntryIndex

open Forest

def unitPushes (units : List (CompileUnit × Forest)) : List Push :=
  units.flatMap fun (unit, forest) => .unit unit :: (forest.preorder 0).map (.entry unit.offset)

def forestFrom (index : EntryIndex) : (fuel : Nat) → List Nat → Forest
  | 0, _ => .nil
  | _, [] => .nil
  | fuel + 1, offset :: rest =>
    match index.entry? offset with
    | none => index.forestFrom fuel rest
    | some entry =>
      .cons entry (index.forestFrom fuel (index.children offset)) (index.forestFrom fuel rest)

def forest (index : EntryIndex) : Forest :=
  index.forestFrom index.size ((index.entries.filter (·.parent = none)).map (·.offset))

def Has (index : EntryIndex) : Forest → Prop
  | .nil => True
  | .cons root parts rest =>
    index.entry? root.offset = some root ∧
      index.children root.offset = parts.roots.map (·.offset) ∧ index.Has parts ∧ index.Has rest

theorem Has.forestFrom {index : EntryIndex} {forest : Forest} (has : index.Has forest) {fuel : Nat}
    (enough : forest.entries.length ≤ fuel) :
    index.forestFrom fuel (forest.roots.map (·.offset)) = forest := by
  induction forest generalizing fuel with
  | nil => cases fuel <;> rfl
  | cons root parts rest under behind =>
    obtain ⟨found, children, below, after⟩ := has
    simp only [Forest.entries, List.length_cons, List.length_append] at enough
    obtain ⟨less, rfl⟩ : ∃ less, fuel = less + 1 := Nat.exists_eq_add_one.2 (by omega)
    simp only [roots, List.map_cons, EntryIndex.forestFrom, found, children]
    rw [under below (by omega), behind after (by omega)]

theorem has_of_children {index : EntryIndex} {forest : Forest} {parent : Option Nat}
    (parented : forest.Parented parent) (outside : ∀ offset ∈ parent, offset ∉ forest.offsets)
    (distinct : forest.offsets.Nodup)
    (found : ∀ entry ∈ forest.entries, index.entry? entry.offset = some entry)
    (children : ∀ offset ∈ forest.offsets, index.children offset =
      (forest.entries.filter (·.parent = some offset)).map (·.offset)) : index.Has forest := by
  induction forest generalizing parent with
  | nil => trivial
  | cons root parts rest under behind =>
    obtain ⟨same, above, others⟩ := parented
    obtain ⟨rootApart, distinctBelow⟩ := List.nodup_cons.1 distinct
    rw [List.map_append] at rootApart distinctBelow
    obtain ⟨distinctParts, distinctRest, apart⟩ := List.nodup_append'.1 distinctBelow
    obtain ⟨notInParts, notInRest⟩ := not_or.1 (mt List.mem_append.2 rootApart)
    have inside {offset : Nat} (below : offset ∈ parts.offsets ∨ offset ∈ rest.offsets) :
        offset ∈ (Forest.cons root parts rest).offsets := by
      simpa only [offsets, Forest.entries, List.map_cons, List.map_append, List.mem_cons,
        List.mem_append] using Or.inr below
    have rootInside : root.offset ∈ (Forest.cons root parts rest).offsets := List.mem_cons_self ..
    have notAround {offset : Nat} (member : offset ∈ (Forest.cons root parts rest).offsets) :
        parent ≠ some offset := by
      rintro rfl
      exact outside offset rfl member
    have underRoot : ∀ offset ∈ some root.offset, offset ∉ parts.offsets := by
      rintro offset ⟨rfl⟩
      exact notInParts
    -- The root is nobody's child in here.
    have childrenBelow {offset : Nat} (member : offset ∈ (Forest.cons root parts rest).offsets) :
        index.children offset = (parts.entries.filter (·.parent = some offset) ++
          rest.entries.filter (·.parent = some offset)).map (·.offset) := by
      rw [children offset member, Forest.entries, List.filter_cons_of_neg, List.filter_append]
      simpa [same] using notAround member
    have rootChildren : index.children root.offset = parts.roots.map (·.offset) := by
      have noneBehind : ∀ offset ∈ some root.offset, offset ∉ rest.offsets := by
        rintro offset ⟨rfl⟩
        exact notInRest
      rw [childrenBelow rootInside, filter_parent above underRoot, filter_parent others noneBehind,
        if_pos rfl, if_neg (notAround rootInside), List.append_nil]
    have partsChildren : ∀ offset ∈ parts.offsets, index.children offset =
        (parts.entries.filter (·.parent = some offset)).map (·.offset) := by
      intro offset member
      have within := inside (.inl member)
      have elsewhere : ∀ other ∈ some offset, other ∉ rest.offsets := by
        rintro other ⟨rfl⟩
        exact apart member
      rw [childrenBelow within, filter_parent others elsewhere, if_neg (notAround within),
        List.append_nil]
    have restChildren : ∀ offset ∈ rest.offsets, index.children offset =
        (rest.entries.filter (·.parent = some offset)).map (·.offset) := by
      intro offset member
      have notRoot : ¬some root.offset = some offset := by
        rintro ⟨rfl⟩
        exact notInRest member
      have elsewhere : ∀ other ∈ some offset, other ∉ parts.offsets := by
        rintro other ⟨rfl⟩ within
        exact apart within member
      rw [childrenBelow (inside (.inr member)), filter_parent above elsewhere, if_neg notRoot,
        List.nil_append]
    have hasParts : index.Has parts := under above underRoot distinctParts
      (fun entry member => found entry (List.mem_cons_of_mem _ (List.mem_append_left _ member)))
      partsChildren
    have hasRest : index.Has rest := behind others
      (fun offset around member => outside offset around (inside (.inr member))) distinctRest
      (fun entry member => found entry (List.mem_cons_of_mem _ (List.mem_append_right _ member)))
      restChildren
    exact ⟨found root (List.mem_cons_self ..), rootChildren, hasParts, hasRest⟩

theorem around?_append (history : History) {deeper : List Entry} {depth : Nat}
    (deep : ∀ entry ∈ deeper, depth ≤ entry.depth) :
    ({ history with recent := deeper ++ history.recent } : History).around? depth =
      history.around? depth := by
  have passed : deeper.find? (·.depth < depth) = none := by
    simpa using deep
  simp only [History.around?, List.find?_append, passed, Option.none_or]

theorem foldl_preorder {history : History} {unit : Nat} (known : unit ∈ history.units)
    (forest : Forest) (depth : Nat) :
    ((forest.preorder depth).map (.entry unit)).foldl History.push history =
      { history with recent := (forest.placed unit depth
          ((history.around? depth).map (·.offset))).entries.reverse ++ history.recent } := by
  induction forest generalizing depth history with
  | nil => rfl
  | cons root parts rest under behind =>
    let entry : Entry :=
      { root with unit, depth, parent := (history.around? depth).map (·.offset) }
    let opened : History := { history with recent := entry :: history.recent }
    let closed : History := { history with recent :=
      (parts.placed unit (depth + 1) (some root.offset)).entries.reverse ++ [entry] ++
        history.recent }
    have pushed : history.push (.entry unit { root with depth }) = opened := by
      simp [History.push, known, opened, entry]
    have nearest : opened.around? (depth + 1) = some entry := by
      simp [History.around?, opened, entry]
    have passed : closed.around? depth = history.around? depth := by
      refine around?_append history ?_
      intro below member
      rcases List.mem_append.1 member with inside | same
      · exact Nat.le_of_succ_le (le_depth_of_mem_placed (List.mem_reverse.1 inside))
      · obtain rfl := List.mem_singleton.1 same
        exact Nat.le_refl depth
    have partsPushed : ((parts.preorder (depth + 1)).map (.entry unit)).foldl History.push opened =
        closed := by
      have knownOpened : unit ∈ opened.units := known
      rw [under knownOpened, nearest]
      simp [closed, opened, entry]
    have knownClosed : unit ∈ closed.units := known
    rw [preorder, List.map_cons, List.map_append, List.foldl_cons, List.foldl_append, pushed,
      partsPushed, behind knownClosed, passed]
    simp [placed, Forest.entries, closed, entry]

theorem accepted_unitPushes (units : List (CompileUnit × Forest)) :
    (History.of (unitPushes units)).accepted = (ofUnits units).entries := by
  suffices ∀ history : History, ((unitPushes units).foldl History.push history).accepted =
      history.accepted ++ (ofUnits units).entries from this .empty
  induction units with
  | nil => exact fun history => (List.append_nil _).symm
  | cons first rest ih =>
    intro history
    obtain ⟨unit, forest⟩ := first
    have known : unit.offset ∈ (history.push (.unit unit)).units := List.mem_cons_self ..
    rw [unitPushes, List.flatMap_cons, List.cons_append, List.foldl_cons, List.foldl_append,
      foldl_preorder known, ← unitPushes, ih]
    simp [History.push, History.accepted, History.around?, ofUnits, entries_append]

theorem build_nested (pushes : List Push) (distinct : (History.of pushes).Distinct) :
    (build pushes).Nested (.of pushes) ∧
      ∀ units : List (CompileUnit × Forest), pushes = unitPushes units →
        (build pushes).forest = ofUnits units := by
  have nested := nested_build distinct
  refine ⟨nested, ?_⟩
  rintro units rfl
  have accepted := accepted_unitPushes units
  have parented := ofUnits_parented units
  rw [History.Distinct, accepted] at distinct
  have has : (build (unitPushes units)).Has (ofUnits units) := by
    refine has_of_children parented (by simp) distinct ?_ ?_
    · exact fun entry member => nested.found entry (accepted ▸ member)
    · exact fun offset _ => accepted ▸ nested.children offset
  have size : (build (unitPushes units)).size = (ofUnits units).entries.length := by
    rw [EntryIndex.size, ← List.length_reverse, (follows_build _).pushed_reverse, accepted]
  rw [forest, nested.entries, accepted, filter_parent parented (by simp), if_pos rfl, size]
  exact has.forestFrom (Nat.le_refl _)

def bareUnit (offset : Nat) : CompileUnit := ⟨offset, "", none, 0, [], [], []⟩

def bareEntry (offset depth : Nat) : Entry := ⟨offset, Tag.structureType, 0, depth, none, []⟩

def twoUnits : List (CompileUnit × Forest) :=
  let inner := .cons (bareEntry 32 0) (.cons (bareEntry 48 0) .nil .nil)
    (.cons (bareEntry 64 0) .nil .nil)
  [(bareUnit 11, .cons (bareEntry 11 0) inner .nil),
    (bareUnit 96, .cons (bareEntry 96 0) .nil .nil)]

def jumpingPushes : List Push :=
  unitPushes twoUnits ++
    [.entry 5 (bareEntry 112 1), .entry 96 (bareEntry 128 4), .entry 96 (bareEntry 144 2)]

theorem build_nested_jumping :
    ((History.of jumpingPushes).Distinct ∧
      (build jumpingPushes).entries.map (fun e => (e.offset, e.parent)) =
        [(11, none), (32, some 11), (48, some 32), (64, some 11), (96, none), (128, some 96),
          (144, some 96)]) ∧
      (build (unitPushes twoUnits)).forest = ofUnits twoUnits := by
  have distinct : (History.of jumpingPushes).Distinct := by decide
  refine ⟨⟨distinct, ?_⟩, (build_nested (unitPushes twoUnits) (by decide)).2 twoUnits rfl⟩
  rw [(build_nested jumpingPushes distinct).1.entries]
  decide

end EntryIndex

end SourceScope
