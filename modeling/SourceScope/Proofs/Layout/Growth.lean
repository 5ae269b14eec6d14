import Mathlib.Data.Set.Basic
import Mathlib.Logic.Function.Iterate
import SourceScope.Proofs.Entry.Nesting
import SourceScope.Proofs.Layout.Closed

set_option autoImplicit false

namespace SourceScope

def Entry.Derives (entry : Entry) : Prop :=
  entry.tag = Tag.typedef ∧ entry.name?.isSome ∨ entry.tag = Tag.arrayType ∨
    entry.tag = Tag.constType ∨ entry.tag = Tag.volatileType

namespace TypeTable

def resolved (table : TypeTable) : Set Nat := {offset | (table.at? offset).isSome}

def Usable (known : Set Nat) (member : Entry) : Prop :=
  (∃ target ∈ known, member.type? = some target) ∧ (memberPlace? member).isSome

/-- When a visit gives an entry a type. -/
inductive Ready (owners : List (Nat × Entry)) (last : Bool) (known : Set Nat) (entry : Entry) :
    Prop
  | pointer (tag : entry.tag = Tag.pointerType)
  | derived (derives : entry.Derives) {target : Nat} (refers : entry.type? = some target)
      (resolved : target ∈ known)
  | whole (tag : isCompositeTag entry.tag = true) (owns : membersOf owners entry.offset ≠ [])
      (usable : ∀ member ∈ membersOf owners entry.offset, Usable known member)
  | partly (tag : isCompositeTag entry.tag = true) (final : last = true) {member : Entry}
      (owned : member ∈ membersOf owners entry.offset) (usable : Usable known member)

theorem Usable.mono {small large : Set Nat} {member : Entry} (usable : Usable small member)
    (le : small ⊆ large) : Usable large member := by
  obtain ⟨⟨target, known, refers⟩, place⟩ := usable
  exact ⟨⟨target, le known, refers⟩, place⟩

theorem Ready.mono {owners : List (Nat × Entry)} {last later : Bool} {small large : Set Nat}
    {entry : Entry} (ready : Ready owners last small entry) (le : small ⊆ large)
    (order : last = true → later = true) : Ready owners later large entry := by
  cases ready with
  | pointer tag => exact .pointer tag
  | derived derives refers resolved => exact .derived derives refers (le resolved)
  | whole tag owns usable => exact .whole tag owns fun m owned => (usable m owned).mono le
  | partly tag final owned usable => exact .partly tag (order final) owned (usable.mono le)

structure Extends (small large : TypeTable) : Prop where
  number : ∀ (offset : Nat) (id : TypeId), small.number? offset = some id →
    large.number? offset = some id
  type : ∀ (id : TypeId) (type : SourceType), small.get? id = some type → large.get? id = some type

namespace Extends

variable {small middle large : TypeTable}

theorem refl (table : TypeTable) : Extends table table := ⟨fun _ _ => id, fun _ _ => id⟩

theorem trans (first : Extends small middle) (second : Extends middle large) :
    Extends small large where
  number offset id known := second.number offset id (first.number offset id known)
  type id type found := second.type id type (first.type id type found)

theorem at? (extended : Extends small large) {offset : Nat} {type : SourceType}
    (found : small.at? offset = some type) : large.at? offset = some type := by
  obtain ⟨id, known, stored⟩ := Option.bind_eq_some_iff.1 found
  rw [TypeTable.at?, extended.number offset id known]
  exact extended.type id type stored

theorem resolved (extended : Extends small large) : small.resolved ⊆ large.resolved := by
  intro offset known
  obtain ⟨type, found⟩ := Option.isSome_iff_exists.1 known
  exact Option.isSome_iff_exists.2 ⟨type, extended.at? found⟩

theorem idAt? (extended : Extends small large) {offset : Nat} {id : TypeId}
    (found : small.idAt? offset = some id) : large.idAt? offset = some id := by
  obtain ⟨known, stored⟩ := idAt?_resolved found
  obtain ⟨type, atId⟩ := Option.isSome_iff_exists.1 stored
  simp [TypeTable.idAt?, extended.number offset id known, extended.type id type atId]

theorem member? (extended : Extends small large) {entry : Entry} {member : Member}
    (found : small.member? entry = some member) : large.member? entry = some member := by
  obtain ⟨offset, refers, found⟩ := Option.bind_eq_some_iff.1 found
  obtain ⟨id, atOffset, found⟩ := Option.bind_eq_some_iff.1 found
  simpa [TypeTable.member?, refers, extended.idAt? atOffset] using found

end Extends

section Lookups

variable {table : TypeTable}

theorem isSome_idAt? (table : TypeTable) (offset : Nat) :
    (table.idAt? offset).isSome = (table.at? offset).isSome := by
  unfold idAt? at?
  cases table.number? offset with
  | none => rfl
  | some id => cases stored : table.get? id <;> simp [stored]

theorem isSome_member?_iff {entry : Entry} :
    (table.member? entry).isSome ↔ Usable table.resolved entry := by
  unfold member? Usable
  cases entry.type? with
  | none => simp
  | some target =>
    have same := isSome_idAt? table target
    cases found : table.idAt? target <;> cases memberPlace? entry <;>
      simp [found] at same ⊢ <;> simp [resolved, same]

theorem at?_allocate (table : TypeTable) (offset other : Nat) :
    (table.allocate offset).2.at? other = table.at? other := by
  simp only [at?, number?_allocate, Option.bind_congr fun id _ => get?_allocate table offset id]
  split
  next same =>
    subst same
    unfold allocate
    split
    next id known => simp [known]
    next unknown => simp [unknown, get?]
  next => rfl

theorem at?_define (drafted : table.Drafted) (offset : Nat) (type : SourceType) (other : Nat) :
    (table.define offset type).at? other = if other = offset then some type else table.at? other := by
  have number : (table.define offset type).number? other =
      (table.allocate offset).2.number? other := rfl
  have own := number?_allocate_self table offset
  split
  next same =>
    subst same
    simp [at?, number, own, get?_define drafted]
  next differs =>
    rw [← at?_allocate table offset, at?, at?, number]
    refine Option.bind_congr fun id known => ?_
    rw [get?_define drafted, get?_allocate, if_neg]
    -- the number of another offset is not the one that is filled
    rintro rfl
    exact differs ((drafted.allocate offset).separate other offset _ known own)

theorem extends_allocate (table : TypeTable) (offset : Nat) :
    Extends table (table.allocate offset).2 where
  number other id known := by
    rw [number?_allocate]
    split
    next same =>
      subst same
      simp [allocate, known]
    next => exact known
  type id type found := by rw [get?_allocate, found]

theorem extends_define (drafted : table.Drafted) {offset : Nat} (type : SourceType)
    (unresolved : offset ∉ table.resolved) : Extends table (table.define offset type) where
  number := (extends_allocate table offset).number
  type id stored found := by
    rw [get?_define drafted, if_neg, found]
    rintro rfl
    have own : (table.allocate offset).2.at? offset = some stored := by
      simp [at?, number?_allocate_self, get?_allocate, found]
    rw [at?_allocate] at own
    exact unresolved (Option.isSome_iff_exists.2 ⟨stored, own⟩)

end Lookups

section Visits

variable {table : TypeTable} {settings : Settings} {index : EntryIndex}
  {owners : List (Nat × Entry)} {last : Bool} {entry : Entry}

def entryType? (settings : Settings) (index : EntryIndex) (owners : List (Nat × Entry))
    (last : Bool) (table : TypeTable) (entry : Entry) : Option SourceType :=
  if entry.tag = Tag.pointerType then some (pointerType table entry).1
  else if entry.tag = Tag.typedef then typedefType? settings table entry
  else if isCompositeTag entry.tag then compositeType? settings owners table last entry
  else if entry.tag = Tag.arrayType then arrayType? index table entry
  else if entry.tag = Tag.constType ∨ entry.tag = Tag.volatileType then
    qualifiedType? table entry
  else none

theorem isSome_typedefType?_iff :
    (typedefType? settings table entry).isSome ↔
      entry.name?.isSome ∧ ∃ target, entry.type? = some target ∧ target ∈ table.resolved := by
  unfold typedefType?
  cases entry.name? with
  | none => simp
  | some name =>
    cases entry.type? with
    | none => simp
    | some target => cases found : table.at? target <;> simp [resolved, found]

theorem isSome_qualifiedType?_iff :
    (qualifiedType? table entry).isSome ↔
      ∃ target, entry.type? = some target ∧ target ∈ table.resolved := by
  unfold qualifiedType?
  cases entry.type? with
  | none => simp
  | some target => cases found : table.at? target <;> simp [resolved, found]

theorem isSome_arrayType?_iff :
    (arrayType? index table entry).isSome ↔
      ∃ target, entry.type? = some target ∧ target ∈ table.resolved := by
  unfold arrayType?
  cases entry.type? with
  | none => simp
  | some target =>
    have same := isSome_idAt? table target
    cases found : table.idAt? target with
    | none =>
      rw [found, Option.isSome_none] at same
      simp [resolved, found, ← same]
    | some id =>
      obtain ⟨type, stored⟩ := Option.isSome_iff_exists.1 (idAt?_resolved found).2
      rw [found, Option.isSome_some] at same
      simp [resolved, found, stored, ← same]

theorem isSome_compositeType?_iff :
    (compositeType? settings owners table last entry).isSome ↔
      membersOf owners entry.offset ≠ [] ∧
          (∀ member ∈ membersOf owners entry.offset, Usable table.resolved member) ∨
        last = true ∧ ∃ member ∈ membersOf owners entry.offset, Usable table.resolved member := by
  simp only [← isSome_member?_iff]
  unfold compositeType?
  simp only
  generalize membersOf owners entry.offset = candidates
  have le := List.length_filterMap_le table.member? candidates
  have all : (candidates.filterMap table.member?).length = candidates.length ↔
      ∀ member ∈ candidates, (table.member? member).isSome := List.filterMap_length_eq_length
  have any : candidates.filterMap table.member? ≠ [] ↔
      ∃ member ∈ candidates, (table.member? member).isSome := by
    simp [Option.isSome_iff_ne_none]
  rw [← all, ← any]
  generalize candidates.filterMap table.member? = members at le
  cases last with
  | true => cases members <;> cases candidates <;> simp
  | false =>
    cases members with
    | nil => cases candidates <;> simp
    | cons first rest =>
      have owns : candidates ≠ [] := by
        rintro rfl
        simp at le
      simp only [List.length_cons] at le
      simp [owns]
      omega

theorem entryType?_composite (settings : Settings) (index : EntryIndex)
    (tag : isCompositeTag entry.tag = true) :
    entryType? settings index owners last table entry =
      compositeType? settings owners table last entry := by
  obtain tag | tag : entry.tag = Tag.structureType ∨ entry.tag = Tag.unionType := by
    simpa [isCompositeTag] using tag
  all_goals simp [entryType?, isCompositeTag, tag, Tag.structureType, Tag.unionType,
    Tag.pointerType, Tag.typedef]

theorem isSome_entryType?_iff (settings : Settings) (index : EntryIndex) :
    (entryType? settings index owners last table entry).isSome ↔
      Ready owners last table.resolved entry := by
  constructor
  · intro given
    unfold entryType? at given
    split at given
    next tag => exact .pointer tag
    split at given
    next tag =>
      obtain ⟨named, target, refers, known⟩ := isSome_typedefType?_iff.1 given
      exact .derived (.inl ⟨tag, named⟩) refers known
    split at given
    next tag =>
      rcases isSome_compositeType?_iff.1 given with ⟨owns, usable⟩ | ⟨final, m, owned, usable⟩
      · exact .whole tag owns usable
      · exact .partly tag final owned usable
    split at given
    next tag =>
      obtain ⟨target, refers, known⟩ := isSome_arrayType?_iff.1 given
      exact .derived (.inr (.inl tag)) refers known
    split at given
    next tag =>
      obtain ⟨target, refers, known⟩ := isSome_qualifiedType?_iff.1 given
      exact .derived (.inr (.inr tag)) refers known
    next => cases given
  · intro ready
    cases ready with
    | pointer tag => simp [entryType?, tag]
    | derived derives refers known =>
      have target : ∃ target, entry.type? = some target ∧ target ∈ table.resolved :=
        ⟨_, refers, known⟩
      obtain ⟨tag, named⟩ | tag | tag | tag := derives
      · rw [entryType?, if_neg (by simp [tag, Tag.typedef, Tag.pointerType]), if_pos tag]
        exact isSome_typedefType?_iff.2 ⟨named, target⟩
      · have array : entryType? settings index owners last table entry =
            arrayType? index table entry := by
          simp [entryType?, tag, isCompositeTag, Tag.arrayType, Tag.structureType, Tag.unionType,
            Tag.pointerType, Tag.typedef]
        rw [array]
        exact isSome_arrayType?_iff.2 target
      all_goals
        have qualified : entryType? settings index owners last table entry =
            qualifiedType? table entry := by
          simp [entryType?, tag, isCompositeTag, Tag.arrayType, Tag.structureType, Tag.unionType,
            Tag.pointerType, Tag.typedef, Tag.constType, Tag.volatileType]
        rw [qualified]
        exact isSome_qualifiedType?_iff.2 target
    | whole tag owns usable =>
      rw [entryType?_composite settings index tag]
      exact isSome_compositeType?_iff.2 (.inl ⟨owns, usable⟩)
    | partly tag final owned usable =>
      rw [entryType?_composite settings index tag]
      exact isSome_compositeType?_iff.2 (.inr ⟨final, _, owned, usable⟩)

theorem passEntry_of_resolved (known : entry.offset ∈ table.resolved) :
    passEntry settings index owners last table entry = table :=
  if_pos known

theorem passEntry_of_unresolved (drafted : table.Drafted) (unknown : entry.offset ∉ table.resolved) :
    ∃ base : TypeTable, base.Drafted ∧ Extends table base ∧
      (∀ offset, base.at? offset = table.at? offset) ∧
      (∀ id, base.get? id = table.get? id) ∧
      passEntry settings index owners last table entry =
        match entryType? settings index owners last table entry with
        | some type => base.define entry.offset type
        | none => table := by
  have visit : passEntry settings index owners last table entry = _ := if_neg unknown
  rw [visit]
  unfold entryType?
  split
  next pointer =>
    refine ⟨(pointerType table entry).2, (drafted.pointerType entry).1, ?_, ?_, ?_, rfl⟩
    · unfold pointerType
      split
      · exact .refl table
      · exact extends_allocate table _
    · intro offset
      unfold pointerType
      split
      · rfl
      · exact at?_allocate table _ offset
    · intro id
      unfold pointerType
      split
      · rfl
      · exact get?_allocate table _ id
  next => exact ⟨table, drafted, .refl table, fun _ => rfl, fun _ => rfl, rfl⟩

theorem at?_passEntry (drafted : table.Drafted) (offset : Nat) :
    (passEntry settings index owners last table entry).at? offset =
      if offset = entry.offset then
        (table.at? offset).or (entryType? settings index owners last table entry)
      else table.at? offset := by
  by_cases known : entry.offset ∈ table.resolved
  next =>
    rw [passEntry_of_resolved known]
    split
    next same =>
      obtain ⟨type, found⟩ := Option.isSome_iff_exists.1 known
      rw [same, found, Option.some_or]
    next => rfl
  next =>
    obtain ⟨base, based, -, same, -, visit⟩ := passEntry_of_unresolved drafted known
    rw [visit]
    cases entryType? settings index owners last table entry with
    | none => simp
    | some type =>
      rw [at?_define based, same]
      split
      next own =>
        have empty : table.at? offset = none := by
          simpa [resolved, own] using known
        rw [empty, Option.none_or]
      next => rfl

theorem get?_passEntry (drafted : table.Drafted) {id : TypeId} {type : SourceType}
    (found : (passEntry settings index owners last table entry).get? id = some type) :
    table.get? id = some type ∨
      entryType? settings index owners last table entry = some type := by
  by_cases known : entry.offset ∈ table.resolved
  next =>
    rw [passEntry_of_resolved known] at found
    exact .inl found
  next =>
    obtain ⟨base, based, -, -, same, visit⟩ := passEntry_of_unresolved drafted known
    rw [visit] at found
    split at found
    next made =>
      rw [get?_define based] at found
      split at found
      next => exact .inr (made.trans found)
      next => exact .inl ((same id).symm.trans found)
    next => exact .inl found

theorem extends_passEntry (drafted : table.Drafted) :
    Extends table (passEntry settings index owners last table entry) := by
  by_cases known : entry.offset ∈ table.resolved
  next =>
    rw [passEntry_of_resolved known]
    exact .refl table
  next =>
    obtain ⟨base, based, extended, same, -, visit⟩ := passEntry_of_unresolved drafted known
    rw [visit]
    split
    next type _ =>
      refine extended.trans (extends_define based type ?_)
      simpa [resolved, same] using known
    next => exact .refl table

theorem mem_resolved_passEntry (drafted : table.Drafted) (offset : Nat) :
    offset ∈ (passEntry settings index owners last table entry).resolved ↔
      offset ∈ table.resolved ∨
        offset = entry.offset ∧ Ready owners last table.resolved entry := by
  rw [← isSome_entryType?_iff settings index]
  simp only [resolved, Set.mem_ofPred_eq, at?_passEntry drafted]
  split
  next own => simp [own]
  next other => simp [other]

end Visits

section Passes

variable {table : TypeTable} {settings : Settings} {index : EntryIndex}
  {owners : List (Nat × Entry)} {last : Bool}

theorem pass_induction {P : TypeTable → Prop} {entries : List Entry}
    (visit : ∀ table : TypeTable, table.Drafted → P table → ∀ entry ∈ entries,
      P (passEntry settings index owners last table entry))
    (drafted : table.Drafted) (start : P table) :
    P (pass settings index owners entries last table) := by
  induction entries generalizing table with
  | nil => exact start
  | cons entry rest ih =>
    obtain ⟨here, later⟩ := List.forall_mem_cons.1 (visit table drafted start)
    exact ih (fun table drafted start other among =>
        visit table drafted start other (List.mem_cons_of_mem _ among))
      (drafted.passEntry settings index owners last entry) here

theorem draft_induction {P : TypeTable → Prop}
    (start : P (withBaseTypes settings index.entries .empty))
    (visit : ∀ (last : Bool) (table : TypeTable), table.Drafted → P table →
      ∀ entry ∈ index.entries,
        P (passEntry settings index (memberOwners none index.entries) last table entry)) :
    P (draft settings index) := by
  have run : ∀ (count : Nat) (table : TypeTable), table.Drafted → P table →
      P (passes settings index (memberOwners none index.entries) index.entries count table) := by
    intro count
    induction count with
    | zero => exact fun _ _ holds => holds
    | succ count ih =>
      exact fun table drafted holds => ih _ (drafted.pass settings index _ index.entries _)
        (pass_induction (visit (count == 0)) drafted holds)
  exact run _ _ (drafted_empty.withBaseTypes settings index.entries) start

theorem extends_pass (drafted : table.Drafted) (entries : List Entry) :
    Extends table (pass settings index owners entries last table) :=
  pass_induction (fun _ reached extended _ _ => extended.trans (extends_passEntry reached)) drafted
    (.refl table)

theorem pass_append (first second : List Entry) :
    pass settings index owners (first ++ second) last table =
      pass settings index owners second last (pass settings index owners first last table) := by
  simp [pass]

theorem at?_pass_of_unlisted (drafted : table.Drafted) {entries : List Entry} {offset : Nat}
    (unlisted : ∀ entry ∈ entries, entry.offset ≠ offset) :
    (pass settings index owners entries last table).at? offset = table.at? offset := by
  refine pass_induction (P := fun reached => reached.at? offset = table.at? offset)
    (fun reached there same entry listed => ?_) drafted rfl
  rw [at?_passEntry there, if_neg (unlisted entry listed).symm, same]

theorem mem_resolved_pass_of_unlisted (drafted : table.Drafted) {entries : List Entry}
    {offset : Nat} (unlisted : ∀ entry ∈ entries, entry.offset ≠ offset) :
    offset ∈ (pass settings index owners entries last table).resolved ↔
      offset ∈ table.resolved := by
  simp only [resolved, Set.mem_ofPred_eq, at?_pass_of_unlisted drafted unlisted]

theorem resolved_pass_mono {small large : TypeTable} {few many : Settings} {early late : Bool}
    (smallDrafted : small.Drafted) (largeDrafted : large.Drafted)
    (order : early = true → late = true) (le : small.resolved ⊆ large.resolved)
    (entries : List Entry) :
    (pass few index owners entries early small).resolved ⊆
      (pass many index owners entries late large).resolved := by
  induction entries generalizing small large with
  | nil => exact le
  | cons entry rest ih =>
    refine ih (smallDrafted.passEntry few index owners early entry)
      (largeDrafted.passEntry many index owners late entry) fun offset found => ?_
    rw [mem_resolved_passEntry smallDrafted] at found
    rw [mem_resolved_passEntry largeDrafted]
    rcases found with known | ⟨own, ready⟩
    · exact .inl (le known)
    · exact .inr ⟨own, ready.mono le order⟩

def early (settings : Settings) (index : EntryIndex) (count : Nat) : TypeTable :=
  (pass settings index (memberOwners none index.entries) index.entries false)^[count]
    (withBaseTypes settings index.entries .empty)

theorem early_succ (settings : Settings) (index : EntryIndex) (count : Nat) :
    early settings index (count + 1) =
      pass settings index (memberOwners none index.entries) index.entries false
        (early settings index count) :=
  Function.iterate_succ_apply' _ _ _

theorem early_drafted (settings : Settings) (index : EntryIndex) (count : Nat) :
    (early settings index count).Drafted := by
  induction count with
  | zero => exact drafted_empty.withBaseTypes settings index.entries
  | succ count ih =>
    rw [early_succ]
    exact ih.pass settings index _ index.entries false

theorem passes_succ (entries : List Entry) (count : Nat) :
    passes settings index owners entries (count + 1) table =
      pass settings index owners entries true
        ((pass settings index owners entries false)^[count] table) := by
  induction count generalizing table with
  | zero => rfl
  | succ count ih =>
    rw [passes, ih]
    rfl

theorem draft_eq_early {count : Nat} (passes : settings.typePasses.toNat = count + 1) :
    draft settings index =
      pass settings index (memberOwners none index.entries) index.entries true
        (early settings index count) := by
  simp only [draft, passes, passes_succ]
  rfl

def IsBase (entry : Entry) : Prop :=
  (entry.tag = Tag.baseType ∧ entry.name?.isSome ∨ entry.tag = Tag.enumerationType) ∧
    entry.byteSize?.isSome

theorem isSome_baseType?_iff (settings : Settings) {entry : Entry}
    (tag : entry.tag = Tag.baseType ∨ entry.tag = Tag.enumerationType) :
    (baseType? settings entry).isSome ↔ IsBase entry := by
  unfold baseType? IsBase
  cases entry.name? <;> cases entry.byteSize? <;> rcases tag with tag | tag <;>
    simp [tag, Tag.baseType, Tag.enumerationType]

theorem mem_resolved_define (drafted : table.Drafted) (offset : Nat) (type : SourceType)
    (other : Nat) :
    other ∈ (table.define offset type).resolved ↔ other ∈ table.resolved ∨ offset = other := by
  simp only [resolved, Set.mem_ofPred_eq, at?_define drafted]
  split
  next same => simp [same]
  next differs => simp [Ne.symm differs]

theorem mem_resolved_withBaseTypes (drafted : table.Drafted) (entries : List Entry) (offset : Nat) :
    offset ∈ (withBaseTypes settings entries table).resolved ↔
      offset ∈ table.resolved ∨ ∃ entry ∈ entries, entry.offset = offset ∧ IsBase entry := by
  induction entries generalizing table with
  | nil => simp [withBaseTypes]
  | cons entry rest ih =>
    have head : offset ∈ (withBaseTypes settings [entry] table).resolved ↔
        offset ∈ table.resolved ∨ entry.offset = offset ∧ IsBase entry := by
      simp only [withBaseTypes, List.foldl_cons, List.foldl_nil]
      split
      next tag =>
        rw [← isSome_baseType?_iff settings tag]
        split
        next type found => simp [found, mem_resolved_define drafted]
        next found => simp [found]
      next other =>
        have not_ : ¬ IsBase entry := fun base => other (base.1.imp (·.1) id)
        simp [not_]
    have split_ : withBaseTypes settings (entry :: rest) table =
        withBaseTypes settings rest (withBaseTypes settings [entry] table) := rfl
    rw [split_, ih (drafted.withBaseTypes settings [entry]), head, or_assoc]
    simp

theorem mem_resolved_early_zero (settings : Settings) (index : EntryIndex) (offset : Nat) :
    offset ∈ (early settings index 0).resolved ↔
      ∃ entry ∈ index.entries, entry.offset = offset ∧ IsBase entry := by
  refine (mem_resolved_withBaseTypes drafted_empty index.entries offset).trans ?_
  simp [resolved, at?, number?, empty]

theorem draft_forall {P : TypeTable → Entry → SourceType → Prop}
    (base : ∀ (table : TypeTable) (e : Entry) (type : SourceType), IsBase e → P table e type)
    (extend : ∀ (small large : TypeTable) (e : Entry) (type : SourceType), P small e type →
      Extends small large → P large e type)
    (visit : ∀ (last : Bool) (table : TypeTable) (e : Entry) (type : SourceType), table.Drafted →
      e.offset ∉ table.resolved →
      entryType? settings index (memberOwners none index.entries) last table e = some type →
        P (passEntry settings index (memberOwners none index.entries) last table e) e type) :
    ∀ e ∈ index.entries, ∀ type : SourceType, (draft settings index).at? e.offset = some type →
      P (draft settings index) e type := by
  refine draft_induction (P := fun reached => ∀ e ∈ index.entries, ∀ type : SourceType,
    reached.at? e.offset = some type → P reached e type) ?_ ?_
  · intro e among type found
    obtain ⟨other, listed, same, isBase⟩ := (mem_resolved_early_zero settings index e.offset).1
      (Option.isSome_iff_exists.2 ⟨type, found⟩)
    obtain rfl := EntryIndex.eq_of_mem_entries among listed same.symm
    exact base _ _ type isBase
  · intro last table drafted holds visited listed e among type found
    have extended : Extends table
        (passEntry settings index (memberOwners none index.entries) last table visited) :=
      extends_passEntry drafted
    rw [at?_passEntry drafted] at found
    split at found
    next same =>
      obtain rfl := EntryIndex.eq_of_mem_entries among listed same
      rcases Option.or_eq_some_iff.1 found with before | ⟨missing, made⟩
      · exact extend _ _ _ type (holds e among type before) extended
      · exact visit last table e type drafted (by simp [resolved, missing]) made
    next => exact extend _ _ _ type (holds e among type found) extended

theorem resolved_early_mono (few many : Settings) (index : EntryIndex) {m n : Nat} (le : m ≤ n) :
    (early few index m).resolved ⊆ (early many index n).resolved := by
  induction le with
  | refl =>
    induction m with
    | zero =>
      intro offset
      rw [mem_resolved_early_zero, mem_resolved_early_zero]
      exact id
    | succ m ih =>
      rw [early_succ, early_succ]
      exact resolved_pass_mono (early_drafted few index m) (early_drafted many index m) id ih
        index.entries
  | step _ ih =>
    rw [early_succ]
    exact ih.trans (extends_pass (early_drafted many index _) index.entries).resolved

theorem draft_eq_early_zero (none : settings.typePasses.toNat = 0) :
    draft settings index = early settings index 0 := by
  simp [draft, none, passes, early]

theorem resolved_draft_mono {few many : Settings} (le : few.typePasses ≤ many.typePasses)
    (index : EntryIndex) : (draft few index).resolved ⊆ (draft many index).resolved := by
  rw [UInt64.le_iff_toNat_le] at le
  cases fewer : few.typePasses.toNat <;> cases more : many.typePasses.toNat
  case zero.zero =>
    rw [draft_eq_early_zero fewer, draft_eq_early_zero more]
    exact resolved_early_mono few many index (Nat.le_refl 0)
  case zero.succ n =>
    rw [draft_eq_early_zero fewer, draft_eq_early more]
    exact (resolved_early_mono few many index (Nat.zero_le n)).trans
      (extends_pass (early_drafted many index n) index.entries).resolved
  case succ.zero m => omega
  case succ.succ m n =>
    rw [draft_eq_early fewer, draft_eq_early more]
    exact resolved_pass_mono (early_drafted few index m) (early_drafted many index n) id
      (resolved_early_mono few many index (by omega)) index.entries

end Passes

theorem resolved_resolve (settings : Settings) (index : EntryIndex) :
    (resolve settings index).resolved = (draft settings index).resolved := by
  ext offset
  have same : (resolve settings index).number? offset = (draft settings index).number? offset := rfl
  simp only [resolved, Set.mem_ofPred_eq, at?, same]
  cases (draft settings index).number? offset with
  | none => rfl
  | some id => simp [isSome_get?_resolve]

end TypeTable

end SourceScope
