import SourceScope.Layout.Naming
import SourceScope.Proofs.Layout.Draft

set_option autoImplicit false

namespace SourceScope.TypeTable

structure Closed (table : TypeTable) : Prop where
  references : ∀ (id : TypeId) (type : SourceType), table.get? id = some type →
    ∀ part ∈ type.references, (table.get? part).isSome
  located : ∀ (offset : Nat) (id : TypeId), table.idAt? offset = some id →
    ∃ type, table.get? id = some type ∧ type.offset = offset
  separate : ∀ (a b : Nat) (id : TypeId), table.idAt? a = some id → table.idAt? b = some id → a = b
  inhabited : ∀ (id : TypeId) (type : SourceType), table.get? id = some type →
    type.isComposite → type.members ≠ []

def finalShape (table : TypeTable) : Shape → Shape
  | .pointer (some target) =>
    .pointer (if (table.get? target).isNone then none else some target)
  | shape => shape

theorem get?_dropDangling_eq (table : TypeTable) (id : TypeId) :
    (dropDangling table).get? id =
      (table.get? id).map fun type => { type with shape := table.finalShape type.shape } := by
  rw [get?.eq_1 (dropDangling table), get?.eq_1 table id, dropDangling, Array.getElem?_map]
  cases table.slots[id]? with
  | none => rfl
  | some slot =>
    cases slot with
    | none => rfl
    | some type =>
      obtain ⟨name, size, shape⟩ := type
      cases shape with
      | pointer target =>
        cases target with
        | none => rfl
        | some target =>
          simp only [Option.map_some, Option.join_some, finalShape]
          split <;> rfl
      | base | array | composite => rfl

structure Finishes (table : TypeTable) (draft type : SourceType) : Prop where
  offset : type.offset = draft.offset
  parts : type.parts = draft.parts
  composite : type.isComposite = draft.isComposite
  members : type.members = draft.members
  target : ∀ target ∈ type.target?, (table.get? target).isSome

theorem get?_dropDangling {table : TypeTable} {id : TypeId} {type : SourceType}
    (found : (dropDangling table).get? id = some type) :
    ∃ draft, table.get? id = some draft ∧ table.Finishes draft type := by
  rw [get?_dropDangling_eq, Option.map_eq_some_iff] at found
  obtain ⟨draft, stored, rfl⟩ := found
  refine ⟨draft, stored, ?_⟩
  obtain ⟨name, size, shape⟩ := draft
  cases shape with
  | pointer target =>
    refine ⟨rfl, by cases target <;> rfl, by cases target <;> rfl, by cases target <;> rfl, ?_⟩
    intro named member
    cases target with
    | none => cases member
    | some target =>
      simp only [finalShape, SourceType.target?] at member
      split at member
      next => cases member
      next resolved =>
        obtain rfl := Option.some.inj member
        simpa [Option.isSome_iff_ne_none] using resolved
  | base | array | composite => exact ⟨rfl, rfl, rfl, rfl, nofun⟩

theorem get?_withFinalNames (index : EntryIndex) (table : TypeTable) (id : TypeId) :
    (withFinalNames index table).get? id = (table.get? id).map fun type =>
      { type with name := displayName index table maxNameLinks id } := by
  simp only [get?, withFinalNames, Array.getElem?_mapIdx]
  cases table.slots[id]? with
  | none => rfl
  | some slot => simp

def finalType (settings : Settings) (index : EntryIndex) (id : TypeId) (type : SourceType) :
    SourceType :=
  { type with
    name := displayName index (dropDangling (draft settings index)) maxNameLinks id
    shape := finalShape (draft settings index) type.shape }

theorem get?_resolve_eq (settings : Settings) (index : EntryIndex) (id : TypeId) :
    (resolve settings index).get? id =
      ((draft settings index).get? id).map (finalType settings index id) := by
  rw [resolve, get?_withFinalNames, get?_dropDangling_eq, Option.map_map]
  rfl

theorem isSome_get?_resolve (settings : Settings) (index : EntryIndex) (id : TypeId) :
    ((resolve settings index).get? id).isSome = ((draft settings index).get? id).isSome := by
  rw [get?_resolve_eq, Option.isSome_map]

theorem get?_resolve {settings : Settings} {index : EntryIndex} {id : TypeId} {type : SourceType}
    (found : (resolve settings index).get? id = some type) :
    ∃ other, (draft settings index).get? id = some other ∧
      (draft settings index).Finishes other type := by
  rw [resolve, get?_withFinalNames, Option.map_eq_some_iff] at found
  obtain ⟨named, atId, rfl⟩ := found
  obtain ⟨other, atDraft, finishes⟩ := get?_dropDangling atId
  exact ⟨other, atDraft, finishes.offset, finishes.parts, finishes.composite, finishes.members,
    finishes.target⟩

theorem resolve_closed (settings : Settings) (index : EntryIndex) :
    (resolve settings index).Closed := by
  have drafted := draft_drafted settings index
  constructor
  case references =>
    intro id type found part member
    obtain ⟨other, atDraft, finishes⟩ := get?_resolve found
    rw [isSome_get?_resolve]
    rcases List.mem_append.1 member with target | listed
    · exact finishes.target part (Option.mem_toList.1 target)
    · exact drafted.parts id other atDraft part (finishes.parts ▸ listed)
  case located =>
    intro offset id found
    obtain ⟨known, resolved⟩ := idAt?_resolved found
    obtain ⟨type, atId⟩ := Option.isSome_iff_exists.1 resolved
    obtain ⟨other, atDraft, finishes⟩ := get?_resolve atId
    exact ⟨type, atId, finishes.offset.trans (drafted.located offset id other known atDraft)⟩
  case separate =>
    intro a b id first second
    exact drafted.separate a b id (idAt?_resolved first).1 (idAt?_resolved second).1
  case inhabited =>
    intro id type found composite
    obtain ⟨other, atDraft, finishes⟩ := get?_resolve found
    rw [finishes.members]
    exact drafted.inhabited id other atDraft (finishes.composite ▸ composite)

end SourceScope.TypeTable
