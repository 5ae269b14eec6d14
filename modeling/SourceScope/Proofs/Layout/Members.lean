import Mathlib.Data.List.Nodup
import SourceScope.Proofs.Entry.Nesting
import SourceScope.Proofs.Layout.Growth

set_option autoImplicit false

namespace SourceScope

namespace EntryIndex

def memberEntries (index : EntryIndex) (offset : Nat) : List Entry :=
  TypeTable.membersOf (TypeTable.memberOwners none index.entries) offset

end EntryIndex

namespace TypeTable

def keptMembers (table : TypeTable) (index : EntryIndex) (offset : Nat) : List Entry :=
  match table.at? offset with
  | none => []
  | some type => (index.memberEntries offset).filter fun entry =>
      (table.member? entry).any type.members.contains

section Kept

variable {built table : TypeTable} {index : EntryIndex} {offset : Nat} {type : SourceType}

theorem member?_parts {entry : Entry} {member : Member}
    (found : table.member? entry = some member) :
    ∃ target, entry.type? = some target ∧ table.idAt? target = some member.type ∧
      memberPlace? entry = some member.place := by
  obtain ⟨target, refers, found⟩ := Option.bind_eq_some_iff.1 found
  obtain ⟨id, atTarget, found⟩ := Option.bind_eq_some_iff.1 found
  obtain ⟨place, atPlace, found⟩ := Option.bind_eq_some_iff.1 found
  obtain rfl := Option.some.inj found
  exact ⟨target, refers, atTarget, atPlace⟩

theorem isSome_member?_of_twin (drafted : table.Drafted) (extended : Extends built table)
    {entry twin : Entry} {member : Member} (found : table.member? entry = some member)
    (usable : built.member? twin = some member) : (built.member? entry).isSome := by
  obtain ⟨target, refers, atTarget, place⟩ := member?_parts found
  obtain ⟨other, -, atOther, -⟩ := member?_parts usable
  -- numbers are those of single offsets, so the twin refers to the same one
  obtain rfl : target = other := drafted.separate target other member.type
    (idAt?_resolved atTarget).1 (idAt?_resolved (extended.idAt? atOther)).1
  simp [TypeTable.member?, refers, atOther, place]

theorem keptMembers_eq (drafted : table.Drafted) (extended : Extends built table)
    (found : table.at? offset = some type)
    (made : type.members = (index.memberEntries offset).filterMap built.member?) :
    table.keptMembers index offset =
      (index.memberEntries offset).filter fun entry => (built.member? entry).isSome := by
  simp only [keptMembers, found]
  refine List.filter_congr fun entry listed => ?_
  rw [Bool.eq_iff_iff, Option.any_eq_true]
  constructor
  · rintro ⟨member, atEntry, among⟩
    rw [made, List.contains_iff_mem] at among
    obtain ⟨twin, -, usable⟩ := List.mem_filterMap.1 among
    exact isSome_member?_of_twin drafted extended atEntry usable
  · intro usable
    obtain ⟨member, atEntry⟩ := Option.isSome_iff_exists.1 usable
    refine ⟨member, extended.member? atEntry, ?_⟩
    rw [made, List.contains_iff_mem]
    exact List.mem_filterMap.2 ⟨entry, listed, atEntry⟩

theorem members_keptMembers (drafted : table.Drafted) (extended : Extends built table)
    (found : table.at? offset = some type)
    (made : type.members = (index.memberEntries offset).filterMap built.member?) :
    type.members = (table.keptMembers index offset).filterMap table.member? := by
  rw [keptMembers_eq drafted extended found made, made, List.filterMap_filter]
  refine List.filterMap_congr fun entry _ => ?_
  cases usable : built.member? entry with
  | none => simp
  | some member => simp [extended.member? usable]

end Kept

section Whole

variable {table later : TypeTable} {settings : Settings} {index : EntryIndex}
  {owners : List (Nat × Entry)} {entry : Entry} {type : SourceType}

structure MadeWhole (index : EntryIndex) (table : TypeTable) (offset : Nat) (type : SourceType) :
    Prop where
  members : type.members = (index.memberEntries offset).filterMap table.member?
  usable : ∀ member ∈ index.memberEntries offset, (table.member? member).isSome

theorem MadeWhole.extended {offset : Nat} (made : MadeWhole index table offset type)
    (extended : Extends table later) : MadeWhole index later offset type where
  members := by
    rw [made.members]
    refine List.filterMap_congr fun entry listed => ?_
    obtain ⟨member, usable⟩ := Option.isSome_iff_exists.1 (made.usable entry listed)
    rw [usable, extended.member? usable]
  usable entry listed := by
    obtain ⟨member, usable⟩ := Option.isSome_iff_exists.1 (made.usable entry listed)
    rw [extended.member? usable, Option.isSome_some]

theorem compositeType?_members {last : Bool}
    (found : compositeType? settings owners table last entry = some type) :
    type.members = (membersOf owners entry.offset).filterMap table.member? := by
  unfold compositeType? at found
  simp only at found
  split at found
  next => cases found
  next => exact Option.some.inj found ▸ rfl

theorem compositeType?_madeWhole
    (found : compositeType? settings (memberOwners none index.entries) table false entry =
      some type) : MadeWhole index table entry.offset type where
  members := compositeType?_members found
  usable member listed := by
    obtain ⟨-, usable⟩ | ⟨final, -⟩ := isSome_compositeType?_iff.1 (found ▸ Option.isSome_some)
    · exact isSome_member?_iff.2 (usable member listed)
    · cases final

def Whole (index : EntryIndex) (table : TypeTable) : Prop :=
  ∀ entry ∈ index.entries, isCompositeTag entry.tag = true → ∀ type : SourceType,
    table.at? entry.offset = some type → MadeWhole index table entry.offset type

theorem Whole.passEntry (whole : Whole index table) (drafted : table.Drafted)
    (listed : entry ∈ index.entries) :
    Whole index
      (passEntry settings index (memberOwners none index.entries) false table entry) := by
  intro composite among tag type found
  refine MadeWhole.extended ?_ (extends_passEntry drafted)
  rw [at?_passEntry drafted] at found
  split at found
  next same =>
    obtain rfl := EntryIndex.eq_of_mem_entries among listed same
    rcases Option.or_eq_some_iff.1 found with before | ⟨-, now⟩
    · exact whole composite among tag type before
    · rw [entryType?_composite settings index tag] at now
      exact compositeType?_madeWhole now
  next => exact whole composite among tag type found

theorem early_whole (settings : Settings) (index : EntryIndex) (count : Nat) :
    Whole index (early settings index count) := by
  induction count with
  | zero =>
    intro entry listed tag type found
    -- only base types have a type yet
    obtain ⟨other, among, same, base⟩ := (mem_resolved_early_zero settings index entry.offset).1
      (Option.isSome_iff_exists.2 ⟨type, found⟩)
    obtain rfl := EntryIndex.eq_of_mem_entries among listed same
    obtain ⟨plain | plain, -⟩ := base <;>
      simp [isCompositeTag, plain, Tag.baseType, Tag.enumerationType, Tag.structureType,
        Tag.unionType] at tag
  | succ count ih =>
    rw [early_succ]
    exact pass_induction (fun _ drafted whole _ listed => whole.passEntry drafted listed)
      (early_drafted settings index count) ih

end Whole

section Runs

variable {settings few many : Settings} {index : EntryIndex} {entry : Entry} {type : SourceType}

def Sole (index : EntryIndex) (entry : Entry) : Prop :=
  index.entries.filter (·.offset == entry.offset) = [entry]

instance (index : EntryIndex) (entry : Entry) : Decidable (Sole index entry) :=
  inferInstanceAs (Decidable (_ = _))

theorem Sole.split (sole : Sole index entry) :
    ∃ before after, index.entries = before ++ entry :: after ∧
      (∀ other ∈ before, other.offset ≠ entry.offset) ∧
      ∀ other ∈ after, other.offset ≠ entry.offset := by
  obtain ⟨before, after, entries, first, -, rest⟩ := List.filter_eq_cons_iff.1 sole
  rw [List.filter_eq_nil_iff] at rest
  exact ⟨before, after, entries, by simpa using first, by simpa using rest⟩

def awaiting (settings : Settings) (index : EntryIndex) : TypeTable :=
  early settings index (settings.typePasses.toNat - 1)

theorem awaiting_extends (settings : Settings) (index : EntryIndex) :
    Extends (awaiting settings index) (draft settings index) := by
  unfold awaiting
  cases passes : settings.typePasses.toNat with
  | zero =>
    rw [draft_eq_early_zero passes]
    exact .refl _
  | succ count =>
    rw [draft_eq_early passes]
    exact extends_pass (early_drafted settings index count) index.entries

theorem draft_built {before after : List Entry} (entries : index.entries = before ++ entry :: after)
    (first : ∀ other ∈ before, other.offset ≠ entry.offset)
    (rest : ∀ other ∈ after, other.offset ≠ entry.offset)
    (tag : isCompositeTag entry.tag = true)
    (found : (draft settings index).at? entry.offset = some type) :
    ∃ built : TypeTable, Extends built (draft settings index) ∧
      type.members = (index.memberEntries entry.offset).filterMap built.member? ∧
      (entry.offset ∈ (awaiting settings index).resolved ∧
          MadeWhole index built entry.offset type ∨
        entry.offset ∉ (awaiting settings index).resolved ∧
          built = pass settings index (memberOwners none index.entries) before true
            (awaiting settings index)) := by
  have start := early_drafted settings index (settings.typePasses.toNat - 1)
  have extended := awaiting_extends settings index
  by_cases known : entry.offset ∈ (awaiting settings index).resolved
  next =>
    obtain ⟨old, there⟩ := Option.isSome_iff_exists.1 known
    obtain rfl : old = type := Option.some.inj ((extended.at? there).symm.trans found)
    have whole := early_whole settings index _ entry (by simp [entries]) tag old there
    exact ⟨_, extended, whole.members, .inl ⟨known, whole⟩⟩
  next =>
    -- with no pass at all there would be no table but the first
    obtain ⟨count, passes⟩ : ∃ count, settings.typePasses.toNat = count + 1 := by
      cases passes : settings.typePasses.toNat with
      | succ count => exact ⟨count, rfl⟩
      | zero =>
        rw [awaiting, passes, ← draft_eq_early_zero passes] at known
        exact absurd (Option.isSome_iff_exists.2 ⟨type, found⟩) known
    have start_ : awaiting settings index = early settings index count := by
      rw [awaiting, passes, Nat.add_sub_cancel]
    rw [start_] at known ⊢
    have drafted := early_drafted settings index count
    have reached := drafted.pass settings index (memberOwners none index.entries) before true
    have visited := reached.passEntry settings index (memberOwners none index.entries) true entry
    have run : draft settings index = pass settings index (memberOwners none index.entries) after true
        (passEntry settings index (memberOwners none index.entries) true
          (pass settings index (memberOwners none index.entries) before true
            (early settings index count)) entry) := by
      rw [draft_eq_early passes]
      conv_lhs => rw [pass, entries]
      simp only [pass, List.foldl_append, List.foldl_cons, entries]
    refine ⟨_, ?_, ?_, .inr ⟨known, rfl⟩⟩
    · rw [run]
      exact (extends_passEntry reached).trans (extends_pass visited after)
    · rw [run, at?_pass_of_unlisted visited rest, at?_passEntry reached, if_pos rfl,
        at?_pass_of_unlisted drafted first, Option.not_isSome_iff_eq_none.1 known, Option.none_or,
        entryType?_composite settings index tag] at found
      exact compositeType?_members found

theorem keptMembers_draft_mono (le : few.typePasses ≤ many.typePasses) (sole : Sole index entry)
    (tag : isCompositeTag entry.tag = true) (known : entry.offset ∈ (draft few index).resolved) :
    ((draft few index).keptMembers index entry.offset).Sublist
      ((draft many index).keptMembers index entry.offset) := by
  obtain ⟨before, after, entries, first, rest⟩ := sole.split
  obtain ⟨small, atSmall⟩ := Option.isSome_iff_exists.1 known
  obtain ⟨large, atLarge⟩ := Option.isSome_iff_exists.1 (resolved_draft_mono le index known)
  obtain ⟨builtSmall, extendedSmall, membersSmall, fromSmall⟩ :=
    draft_built entries first rest tag atSmall
  obtain ⟨builtLarge, extendedLarge, membersLarge, fromLarge⟩ :=
    draft_built entries first rest tag atLarge
  rw [keptMembers_eq (draft_drafted few index) extendedSmall atSmall membersSmall,
    keptMembers_eq (draft_drafted many index) extendedLarge atLarge membersLarge]
  have waited : (awaiting few index).resolved ⊆ (awaiting many index).resolved :=
    resolved_early_mono few many index
      (Nat.sub_le_sub_right (UInt64.le_iff_toNat_le.1 le) 1)
  rcases fromLarge with ⟨-, whole⟩ | ⟨late, rfl⟩
  · rw [List.filter_eq_self.2 whole.usable]
    exact List.filter_sublist
  rcases fromSmall with ⟨soon, -⟩ | ⟨-, rfl⟩
  · exact absurd (waited soon) late
  -- both are built in the last pass, from tables of which the second has more types
  refine List.monotone_filter_right _ fun member usable => ?_
  rw [isSome_member?_iff] at usable ⊢
  exact usable.mono (resolved_pass_mono (early_drafted few index _) (early_drafted many index _) id
    waited before)

end Runs

theorem idAt?_resolve (settings : Settings) (index : EntryIndex) (offset : Nat) :
    (resolve settings index).idAt? offset = (draft settings index).idAt? offset := by
  have same : (resolve settings index).number? offset = (draft settings index).number? offset := rfl
  simp only [idAt?, same, isSome_get?_resolve]

theorem member?_resolve (settings : Settings) (index : EntryIndex) (entry : Entry) :
    (resolve settings index).member? entry = (draft settings index).member? entry := by
  simp only [member?, idAt?_resolve]

theorem at?_resolve {settings : Settings} {index : EntryIndex} {offset : Nat} {type : SourceType}
    (found : (resolve settings index).at? offset = some type) :
    ∃ other, (draft settings index).at? offset = some other ∧ type.members = other.members := by
  obtain ⟨id, known, stored⟩ := Option.bind_eq_some_iff.1 found
  obtain ⟨other, atId, finishes⟩ := get?_resolve stored
  exact ⟨other, Option.bind_eq_some_iff.2 ⟨id, known, atId⟩, finishes.members⟩

theorem keptMembers_resolve (settings : Settings) (index : EntryIndex) (offset : Nat) :
    (resolve settings index).keptMembers index offset =
      (draft settings index).keptMembers index offset := by
  have same : ((resolve settings index).at? offset).isSome =
      ((draft settings index).at? offset).isSome :=
    Bool.eq_iff_iff.2 (Set.ext_iff.1 (resolved_resolve settings index) offset)
  unfold keptMembers
  cases found : (resolve settings index).at? offset with
  | none =>
    rw [found, Option.isSome_none, eq_comm, Option.isSome_eq_false_iff, Option.isNone_iff_eq_none]
      at same
    rw [same]
  | some type =>
    obtain ⟨other, atDraft, members⟩ := at?_resolve found
    simp only [atDraft, members, member?_resolve]

structure Grows (index : EntryIndex) (small large : TypeTable) : Prop where
  resolved : ∀ offset : Nat, (small.at? offset).isSome → (large.at? offset).isSome
  members : ∀ entry : Entry, Sole index entry → isCompositeTag entry.tag = true →
    ∀ type : SourceType, small.at? entry.offset = some type →
      ∃ other : SourceType, large.at? entry.offset = some other ∧
        type.members = (small.keptMembers index entry.offset).filterMap small.member? ∧
        other.members = (large.keptMembers index entry.offset).filterMap large.member? ∧
        (small.keptMembers index entry.offset).Sublist (large.keptMembers index entry.offset)

theorem members_resolve {settings : Settings} {index : EntryIndex} {entry : Entry}
    {type : SourceType} (sole : Sole index entry) (tag : isCompositeTag entry.tag = true)
    (found : (resolve settings index).at? entry.offset = some type) :
    type.members = ((resolve settings index).keptMembers index entry.offset).filterMap
      (resolve settings index).member? := by
  obtain ⟨other, atDraft, members⟩ := at?_resolve found
  obtain ⟨before, after, entries, first, rest⟩ := sole.split
  obtain ⟨built, extended, made, -⟩ := draft_built entries first rest tag atDraft
  rw [members, keptMembers_resolve,
    members_keptMembers (draft_drafted settings index) extended atDraft made]
  exact List.filterMap_congr fun entry _ => (member?_resolve settings index entry).symm

/-- More passes lose no type, and no member of a composite whose entry was pushed once. -/
theorem resolve_grows {few many : Settings} (le : few.typePasses ≤ many.typePasses)
    (index : EntryIndex) : Grows index (resolve few index) (resolve many index) := by
  have resolved : (resolve few index).resolved ⊆ (resolve many index).resolved := by
    rw [resolved_resolve, resolved_resolve]
    exact resolved_draft_mono le index
  refine ⟨fun offset known => resolved known, fun entry sole tag type found => ?_⟩
  have known : entry.offset ∈ (resolve few index).resolved :=
    Option.isSome_iff_exists.2 ⟨type, found⟩
  obtain ⟨other, there⟩ := Option.isSome_iff_exists.1 (resolved known)
  refine ⟨other, there, members_resolve sole tag found, members_resolve sole tag there, ?_⟩
  rw [keptMembers_resolve, keptMembers_resolve]
  rw [resolved_resolve] at known
  exact keptMembers_draft_mono le sole tag known

def withPasses (count : UInt64) : Settings := { Settings.default with typePasses := count }

def pushesOf (entries : List Entry) : List EntryIndex.Push :=
  .unit ⟨11, "", none, 0, [], [], []⟩ :: entries.map (.entry 11)

def indexOf (entries : List Entry) : EntryIndex := .build (pushesOf entries)

def intEntry : Entry :=
  ⟨16, Tag.baseType, 0, 1, none, [(Attr.name, .text "int"), (Attr.byteSize, .unsigned 4)]⟩

def boxEntry : Entry := ⟨32, Tag.structureType, 0, 1, none, [(Attr.name, .text "box")]⟩

def referring (offset tag : Nat) (name : String) (target : Nat) : Entry :=
  ⟨offset, tag, 0, 1, none, [(Attr.name, .text name), (Attr.type, .reference target)]⟩

def forwardMember : EntryIndex :=
  indexOf [intEntry, boxEntry, referring 36 Tag.member "a" 16, referring 40 Tag.member "b" 64,
    referring 64 Tag.typedef "later" 16]

theorem resolve_grows_forwardMember :
    (withPasses 1).typePasses ≤ (withPasses 2).typePasses ∧
      Grows forwardMember (resolve (withPasses 1) forwardMember)
        (resolve (withPasses 2) forwardMember) ∧
      ((resolve (withPasses 1) forwardMember).keptMembers forwardMember 32).map (·.offset) = [36] ∧
      ((resolve (withPasses 2) forwardMember).keptMembers forwardMember 32).map (·.offset) =
        [36, 40] := by
  refine ⟨by decide, resolve_grows (by decide) forwardMember, ?_, ?_⟩ <;> decide +kernel

def repeatedBox : EntryIndex :=
  indexOf [intEntry, boxEntry, referring 36 Tag.member "a" 64, referring 40 Tag.member "b" 80,
    referring 64 Tag.typedef "soon" 16,
    ⟨68, Tag.structureType, 0, 1, none, [(Attr.name, .text "part")]⟩,
    referring 72 Tag.member "x" 16, referring 76 Tag.member "y" 96,
    referring 80 Tag.typedef "late" 68, boxEntry]

/-- A second pass takes the box at its first place, where one pass cannot take it yet. -/
theorem repeatedBox_shrinks :
    (∃ type, (resolve (withPasses 1) repeatedBox).at? 32 = some type ∧ type.isComposite) ∧
      ((resolve (withPasses 1) repeatedBox).keptMembers repeatedBox 32).map (·.offset) = [36, 40] ∧
      ((resolve (withPasses 2) repeatedBox).keptMembers repeatedBox 32).map (·.offset) = [36] ∧
      ¬ ((resolve (withPasses 1) repeatedBox).keptMembers repeatedBox 32).Sublist
        ((resolve (withPasses 2) repeatedBox).keptMembers repeatedBox 32) := by
  have one : ((resolve (withPasses 1) repeatedBox).keptMembers repeatedBox 32).map (·.offset) =
      [36, 40] := by decide +kernel
  have two : ((resolve (withPasses 2) repeatedBox).keptMembers repeatedBox 32).map (·.offset) =
      [36] := by decide +kernel
  refine ⟨?_, one, two, fun sub => ?_⟩
  · have composite : ((resolve (withPasses 1) repeatedBox).at? 32).any (·.isComposite) = true := by
      decide +kernel
    exact (Option.any_eq_true _ _).1 composite
  · have fewer := (sub.map (·.offset)).length_le
    simp [one, two] at fewer

end TypeTable

end SourceScope
