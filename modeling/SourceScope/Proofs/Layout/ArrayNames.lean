import SourceScope.Proofs.Layout.Names

set_option autoImplicit false

namespace SourceScope.TypeTable

inductive EarlyName (index : EntryIndex) (table : TypeTable) : Nat → String → Prop where
  | pointer {e : Entry} (listed : e ∈ index.entries) (tag : e.tag = Tag.pointerType) :
    EarlyName index table e.offset "void *"
  | qualifier {e : Entry} {target : Nat} {name : String} (listed : e ∈ index.entries)
    (tag : e.IsQualifier) (refers : e.type? = some target)
    (early : EarlyName index table target name) :
    EarlyName index table e.offset (qualifierName e.tag ++ " " ++ name)
  | kept {offset : Nat} {type : SourceType} (found : table.at? offset = some type)
    (plain : ∀ e ∈ index.entries, e.offset = offset → e.tag ≠ Tag.pointerType ∧ ¬ e.IsQualifier) :
    EarlyName index table offset type.name

theorem EarlyName.unique {index : EntryIndex} {table : TypeTable} {offset : Nat}
    {first second : String} (early : EarlyName index table offset first)
    (also : EarlyName index table offset second) : second = first := by
  induction early generalizing second with
  | @pointer e listed tag =>
    generalize same : e.offset = offset at also
    cases also with
    | pointer => rfl
    | qualifier among other =>
      obtain rfl := EntryIndex.eq_of_mem_entries listed among same
      exact absurd tag other.not_pointer
    | kept found plain => exact absurd tag (plain e listed same).1
  | @qualifier e target name listed tag refers _ ih =>
    generalize same : e.offset = offset at also
    cases also with
    | pointer among other =>
      obtain rfl := EntryIndex.eq_of_mem_entries listed among same
      exact absurd other tag.not_pointer
    | qualifier among other refersThere there =>
      obtain rfl := EntryIndex.eq_of_mem_entries listed among same
      obtain rfl := Option.some.inj (refers.symm.trans refersThere)
      rw [ih there]
    | kept found plain => exact absurd tag (plain e listed same).2
  | @kept offset type found plain =>
    generalize same : offset = there at also
    cases also with
    | pointer among tag => exact absurd tag (plain _ among same.symm).1
    | qualifier among tag => exact absurd tag (plain _ among same.symm).2
    | kept foundThere =>
      subst same
      rw [Option.some.inj (found.symm.trans foundThere)]

section Drafts

variable {settings : Settings} {index : EntryIndex} {e : Entry} {offset : Nat} {type : SourceType}

theorem earlyName_kept (found : (draft settings index).at? offset = some type)
    (plain : ∀ e ∈ index.entries, e.offset = offset → e.tag ≠ Tag.pointerType ∧ ¬ e.IsQualifier) :
    EarlyName index (resolve settings index) offset type.name := by
  have known : offset ∈ (resolve settings index).resolved := by
    rw [resolved_resolve]
    exact Option.isSome_iff_exists.2 ⟨type, found⟩
  obtain ⟨final, atOffset⟩ := Option.isSome_iff_exists.1 known
  have ends : NameEnds index (resolve settings index) offset := fun e target same link =>
    link.renamed.elim (plain e link.listed same).1 (plain e link.listed same).2
  obtain ⟨drafted, there, name⟩ := draft_name_of_ends atOffset ends
  obtain rfl := Option.some.inj (found.symm.trans there)
  exact name ▸ .kept atOffset plain

theorem draft_earlyName (found : (draft settings index).at? offset = some type) :
    EarlyName index (resolve settings index) offset type.name := by
  obtain ⟨chain, last, leads, -, root⟩ :=
    draft_rooted settings index offset (Option.isSome_iff_exists.2 ⟨type, found⟩)
  induction leads generalizing type with
  | nil offset =>
    by_cases pointer : ∃ e ∈ index.entries, e.offset = offset ∧ e.tag = Tag.pointerType
    · obtain ⟨e, listed, rfl, tag⟩ := pointer
      rw [((draft_labelled e listed type found).pointer tag).1]
      exact .pointer listed tag
    · exact earlyName_kept found fun e listed same =>
        ⟨fun tag => pointer ⟨e, listed, same, tag⟩, fun tag => root e listed same (.inr tag)⟩
  | @cons e target last rest listed isAlias refers _ ih =>
    rcases isAlias with tag | tag
    · refine earlyName_kept found fun other among same => ?_
      obtain rfl := EntryIndex.eq_of_mem_entries among listed same
      simp [Entry.IsQualifier, tag, Tag.typedef, Tag.pointerType, Tag.constType, Tag.volatileType]
    · obtain ⟨there, original, also, atTarget, name⟩ :=
        (draft_labelled e listed type found).qualifier tag
      obtain rfl := Option.some.inj (refers.symm.trans also)
      rw [name]
      exact .qualifier listed tag refers (ih atTarget root)

theorem isPointer_of_tag (tag : e.tag = Tag.pointerType) (listed : e ∈ index.entries)
    (found : (resolve settings index).at? e.offset = some type) : type.isPointer = true := by
  obtain ⟨id, drafted, numbered, stored, rfl⟩ := at?_resolve_eq_some_iff.1 found
  have labelled := draft_labelled e listed drafted
    (Option.bind_eq_some_iff.2 ⟨id, numbered, stored⟩)
  have shape := (labelled.pointer tag).2.1
  exact (isPointer_finalShape (draft settings index) drafted).trans
    (by simp only [SourceType.isPointer, shape])

theorem draft_name_of_chain {last : Nat} {chain : List Entry} {element : SourceType}
    (leads : NameChain index (resolve settings index) offset chain last)
    (ends : NameEnds index (resolve settings index) last) (short : chain.length < 8)
    (found : (draft settings index).at? offset = some type)
    (atOffset : (resolve settings index).at? offset = some element)
    (plain : element.isPointer = false) : type.name = element.name := by
  induction leads generalizing type element with
  | nil offset =>
    obtain ⟨drafted, there, name⟩ := draft_name_of_ends atOffset ends
    obtain rfl := Option.some.inj (found.symm.trans there)
    exact name
  | @cons e target last rest link later ih =>
    have qualifier : e.IsQualifier := link.renamed.resolve_left fun tag => by
      rw [isPointer_of_tag tag link.listed atOffset] at plain
      cases plain
    obtain ⟨_, drafted, refers, there, name⟩ :=
      (draft_labelled e link.listed type found).qualifier qualifier
    obtain ⟨_, original, also, atTarget, aliased⟩ :=
      resolve_aliasesMatched settings index e link.listed (.inr qualifier) element atOffset
    obtain rfl := Option.some.inj (link.refers.symm.trans refers)
    obtain rfl := Option.some.inj (link.refers.symm.trans also)
    have plainThere : original.isPointer = false := by
      rw [← plain]
      simp only [SourceType.isPointer, aliased.shape]
    rw [name, ih ends (Nat.lt_of_succ_lt short) there atTarget plainThere,
      name_of_link link atOffset atTarget (.cons link later) ends short, decorated,
      if_neg qualifier.not_pointer, link.refers, Option.bind_some, atTarget, Option.any_some,
      plainThere, if_neg Bool.false_ne_true]

/-- An array is called after the early name of its element, so it is called after the element's
final name exactly if the two are the same. They are the same for what is no pointer, as long as its
name is whole. -/
theorem array_name_iff (listed : e ∈ index.entries) (tag : e.tag = Tag.arrayType)
    (found : (resolve settings index).at? e.offset = some type) :
    ∃ target element early, e.type? = some target ∧
      (resolve settings index).at? target = some element ∧
      (∀ name, EarlyName index (resolve settings index) target name ↔ name = early) ∧
      type.name = early ++ dimensionText (subranges index e) ∧
      (type.name = element.name ++ dimensionText (subranges index e) ↔ element.name = early) ∧
      (element.isPointer = false →
        (∃ chain last, NameChain index (resolve settings index) target chain last ∧
          NameEnds index (resolve settings index) last ∧ chain.length < 8) →
        type.name = element.name ++ dimensionText (subranges index e)) := by
  obtain ⟨drafted, same, labelled⟩ :=
    resolve_labelled listed (nameEnds_of_kept listed (.inr tag)) found
  obtain ⟨target, early, refers, there, name⟩ := labelled.array tag
  have known : target ∈ (resolve settings index).resolved := by
    rw [resolved_resolve]
    exact Option.isSome_iff_exists.2 ⟨early, there⟩
  obtain ⟨element, atTarget⟩ := Option.isSome_iff_exists.1 known
  rw [same] at name
  have called := draft_earlyName there
  refine ⟨target, element, early.name, refers, atTarget, fun other => ⟨called.unique, ?_⟩, name, ?_,
    ?_⟩
  · rintro rfl
    exact called
  · rw [name, String.append_left_inj, eq_comm]
  · rintro noPointer ⟨chain, last, leads, ends, short⟩
    rw [name, draft_name_of_chain leads ends short there atTarget noPointer]

def rows : EntryIndex :=
  indexOf [intEntry, referring 20 Tag.constType "" 16, referring 24 Tag.arrayType "" 20,
    ⟨28, Tag.subrangeType, 0, 2, none, [(Attr.count, .unsigned 3)]⟩,
    referring 32 Tag.pointerType "" 16, referring 36 Tag.arrayType "" 32,
    ⟨40, Tag.subrangeType, 0, 2, none, [(Attr.count, .unsigned 3)]⟩]

theorem array_name_iff_rows :
    ∃ e type, e ∈ rows.entries ∧ e.tag = Tag.arrayType ∧
      (resolve Settings.default rows).at? e.offset = some type ∧ type.name = "const int[3]" ∧
      ∃ target element early, e.type? = some target ∧
        (resolve Settings.default rows).at? target = some element ∧
        (∀ name, EarlyName rows (resolve Settings.default rows) target name ↔ name = early) ∧
        type.name = early ++ dimensionText (subranges rows e) ∧
        (type.name = element.name ++ dimensionText (subranges rows e) ↔ element.name = early) := by
  have listed : { referring 24 Tag.arrayType "" 20 with unit := 11 } ∈ rows.entries := by
    decide +kernel
  have found : (resolve Settings.default rows).at? 24 = some
      (SourceType.plain "const int[3]" 12 (.array 1 3) 24) := by
    decide +kernel
  obtain ⟨target, element, early, refers, atTarget, called, name, same, -⟩ :=
    array_name_iff listed rfl found
  exact ⟨_, _, listed, rfl, found, rfl, target, element, early, refers, atTarget, called, name,
    same⟩

theorem rows_misnamed :
    ∃ e type element, e ∈ rows.entries ∧ e.tag = Tag.arrayType ∧
      (resolve Settings.default rows).at? e.offset = some type ∧ e.type? = some 32 ∧
      (resolve Settings.default rows).at? 32 = some element ∧ element.name = "int *" ∧
      type.name = "void *[3]" ∧ type.name ≠ element.name ++ dimensionText (subranges rows e) := by
  have listed : { referring 36 Tag.arrayType "" 32 with unit := 11 } ∈ rows.entries := by
    decide +kernel
  have array : (resolve Settings.default rows).at? 36 = some
      (SourceType.plain "void *[3]" 12 (.array 3 3) 36) := by
    decide +kernel
  have pointer : (resolve Settings.default rows).at? 32 = some
      (SourceType.plain "int *" 4 (.pointer (some 0)) 32) := by
    decide +kernel
  refine ⟨_, _, _, listed, rfl, array, rfl, pointer, rfl, rfl, ?_⟩
  decide +kernel

end Drafts

end SourceScope.TypeTable
