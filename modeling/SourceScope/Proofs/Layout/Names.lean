import SourceScope.Proofs.Layout.Aliases

set_option autoImplicit false

namespace SourceScope

def Entry.IsQualifier (e : Entry) : Prop := e.tag = Tag.constType ∨ e.tag = Tag.volatileType

theorem Entry.IsQualifier.not_pointer {e : Entry} (tag : e.IsQualifier) :
    e.tag ≠ Tag.pointerType := by
  rcases tag with tag | tag <;> simp [tag, Tag.pointerType, Tag.constType, Tag.volatileType]

namespace TypeTable

structure NameLink (index : EntryIndex) (table : TypeTable) (e : Entry) (target : Nat) : Prop where
  listed : e ∈ index.entries
  renamed : e.tag = Tag.pointerType ∨ e.IsQualifier
  refers : e.type? = some target
  resolved : target ∈ table.resolved

inductive NameChain (index : EntryIndex) (table : TypeTable) : Nat → List Entry → Nat → Prop where
  | nil (offset : Nat) : NameChain index table offset [] offset
  | cons {e : Entry} {target last : Nat} {rest : List Entry} (link : NameLink index table e target)
    (chain : NameChain index table target rest last) :
    NameChain index table e.offset (e :: rest) last

def NameEnds (index : EntryIndex) (table : TypeTable) (offset : Nat) : Prop :=
  ∀ (e : Entry) (target : Nat), e.offset = offset → ¬ NameLink index table e target

def decorated (table : TypeTable) (e : Entry) (name : String) : String :=
  if e.tag = Tag.pointerType then name ++ " *"
  else if (e.type?.bind table.at?).any (·.isPointer) then name ++ " " ++ qualifierName e.tag
  else qualifierName e.tag ++ " " ++ name

-- What the passes make of an entry: its name by then, and what a pointer points to.
structure Labelled (index : EntryIndex) (table : TypeTable) (e : Entry) (type : SourceType) :
    Prop where
  typedef : e.tag = Tag.typedef → e.name? = some type.name
  pointer : e.tag = Tag.pointerType → type.name = "void *" ∧
    type.shape = .pointer (e.type?.bind table.number?) ∧
    ∀ target : Nat, e.type? = some target → (table.number? target).isSome
  qualifier : e.IsQualifier → ∃ target original, e.type? = some target ∧
    table.at? target = some original ∧ type.name = qualifierName e.tag ++ " " ++ original.name
  array : e.tag = Tag.arrayType → ∃ target element, e.type? = some target ∧
    table.at? target = some element ∧ type.name = element.name ++ dimensionText (subranges index e)

section Visits

variable {table later : TypeTable} {settings : Settings} {index : EntryIndex}
  {owners : List (Nat × Entry)} {last : Bool} {e : Entry} {type : SourceType}

theorem Labelled.extended (labelled : Labelled index table e type)
    (extended : Extends table later) : Labelled index later e type where
  typedef := labelled.typedef
  pointer tag := by
    obtain ⟨name, shape, numbered⟩ := labelled.pointer tag
    have same : ∀ target : Nat, e.type? = some target →
        later.number? target = table.number? target := by
      intro target refers
      obtain ⟨id, known⟩ := Option.isSome_iff_exists.1 (numbered target refers)
      rw [known, extended.number target id known]
    refine ⟨name, ?_, fun target refers => ?_⟩
    · rw [shape, Option.bind_congr same]
    · rw [same target refers]
      exact numbered target refers
  qualifier tag := by
    obtain ⟨target, original, refers, known, name⟩ := labelled.qualifier tag
    exact ⟨target, original, refers, extended.at? known, name⟩
  array tag := by
    obtain ⟨target, element, refers, known, name⟩ := labelled.array tag
    exact ⟨target, element, refers, extended.at? known, name⟩

theorem Labelled.of_base (base : IsBase e) : Labelled index table e type := by
  obtain ⟨⟨tag, -⟩ | tag, -⟩ := base <;> constructor <;>
    simp [Entry.IsQualifier, tag, Tag.baseType, Tag.enumerationType, Tag.typedef, Tag.pointerType,
      Tag.constType, Tag.volatileType, Tag.arrayType]

theorem typedefType?_name (made : typedefType? settings table e = some type) :
    e.name? = some type.name := by
  obtain ⟨name, named, made⟩ := Option.bind_eq_some_iff.1 made
  obtain ⟨target, -, made⟩ := Option.bind_eq_some_iff.1 made
  obtain ⟨original, -, made⟩ := Option.bind_eq_some_iff.1 made
  obtain rfl := Option.some.inj made
  exact named

theorem qualifiedType?_name (tag : e.IsQualifier) (made : qualifiedType? table e = some type) :
    ∃ target original, e.type? = some target ∧ table.at? target = some original ∧
      type.name = qualifierName e.tag ++ " " ++ original.name := by
  obtain ⟨target, refers, made⟩ := Option.bind_eq_some_iff.1 made
  obtain ⟨original, known, made⟩ := Option.bind_eq_some_iff.1 made
  obtain rfl := Option.some.inj made
  refine ⟨target, original, refers, known, ?_⟩
  rcases tag with tag | tag
  · rw [if_pos tag, qualifierName, if_pos tag]
    rfl
  · have other : e.tag ≠ Tag.constType := by simp [tag, Tag.constType, Tag.volatileType]
    rw [if_neg other, qualifierName, if_neg other]
    rfl

theorem arrayType?_name (made : arrayType? index table e = some type) :
    ∃ target element, e.type? = some target ∧ table.at? target = some element ∧
      type.name = element.name ++ dimensionText (subranges index e) := by
  obtain ⟨target, refers, made⟩ := Option.bind_eq_some_iff.1 made
  obtain ⟨id, atTarget, made⟩ := Option.bind_eq_some_iff.1 made
  obtain ⟨element, stored, made⟩ := Option.bind_eq_some_iff.1 made
  obtain rfl := Option.some.inj made
  exact ⟨target, element, refers,
    Option.bind_eq_some_iff.2 ⟨id, (idAt?_resolved atTarget).1, stored⟩, rfl⟩

theorem labelled_pointer (tag : e.tag = Tag.pointerType) :
    Labelled index (pointerType table e).2 e (pointerType table e).1 := by
  constructor
  case pointer =>
    intro _
    unfold pointerType
    cases refers : e.type? with
    | none => exact ⟨rfl, rfl, nofun⟩
    | some offset =>
      have own := number?_allocate_self table offset
      refine ⟨rfl, ?_, fun target same => ?_⟩
      · rw [Option.bind_some]
        exact congrArg Shape.pointer own.symm
      · obtain rfl := Option.some.inj same
        exact Option.isSome_iff_exists.2 ⟨_, own⟩
  all_goals
    simp [Entry.IsQualifier, tag, Tag.pointerType, Tag.typedef, Tag.constType, Tag.volatileType,
      Tag.arrayType]

theorem entryType?_labelled (plain : e.tag ≠ Tag.pointerType)
    (made : entryType? settings index owners last table e = some type) :
    Labelled index table e type where
  typedef tag := by
    have typedef : entryType? settings index owners last table e =
        typedefType? settings table e := by
      simp [entryType?, tag, Tag.typedef, Tag.pointerType]
    exact typedefType?_name (typedef.symm.trans made)
  pointer tag := absurd tag plain
  qualifier tag := by
    have qualified : entryType? settings index owners last table e = qualifiedType? table e := by
      rcases tag with tag | tag <;>
        simp [entryType?, tag, isCompositeTag, Tag.arrayType, Tag.structureType, Tag.unionType,
          Tag.pointerType, Tag.typedef, Tag.constType, Tag.volatileType]
    exact qualifiedType?_name tag (qualified.symm.trans made)
  array tag := by
    have array : entryType? settings index owners last table e = arrayType? index table e := by
      simp [entryType?, tag, isCompositeTag, Tag.arrayType, Tag.structureType, Tag.unionType,
        Tag.pointerType, Tag.typedef]
    exact arrayType?_name (array.symm.trans made)

theorem passEntry_labelled (drafted : table.Drafted) (unknown : e.offset ∉ table.resolved)
    (made : entryType? settings index owners last table e = some type) :
    Labelled index (passEntry settings index owners last table e) e type := by
  by_cases tag : e.tag = Tag.pointerType
  · have visit : passEntry settings index owners last table e =
        (pointerType table e).2.define e.offset (pointerType table e).1 :=
      (if_neg unknown).trans (if_pos tag)
    have made : (pointerType table e).1 = type := by
      simpa [entryType?, tag] using made
    have still : e.offset ∉ (pointerType table e).2.resolved := by
      suffices (pointerType table e).2.at? e.offset = table.at? e.offset by
        simpa [resolved, this] using unknown
      unfold pointerType
      split
      next => rfl
      next => exact at?_allocate table _ e.offset
    rw [visit, ← made]
    exact (labelled_pointer tag).extended (extends_define (drafted.pointerType e).1 _ still)
  · exact (entryType?_labelled tag made).extended (extends_passEntry drafted)

end Visits

section Drafts

variable {settings : Settings} {index : EntryIndex} {e : Entry} {target offset : Nat}

theorem draft_labelled : ∀ e ∈ index.entries, ∀ type : SourceType,
    (draft settings index).at? e.offset = some type →
      Labelled index (draft settings index) e type :=
  draft_forall (fun _ _ _ base => .of_base base)
    (fun _ _ _ _ labelled extended => labelled.extended extended)
    (fun _ _ _ _ drafted unknown made => passEntry_labelled drafted unknown made)

/-- What the type at an offset is called where a name has so many links left. -/
def nameAfter (settings : Settings) (index : EntryIndex) (links offset : Nat) : String :=
  ((draft settings index).number? offset).elim "void"
    (displayName index (dropDangling (draft settings index)) links)

theorem nameAfter_zero (known : offset ∈ (resolve settings index).resolved) :
    nameAfter settings index 0 offset = "..." := by
  rw [resolved_resolve] at known
  obtain ⟨drafted, found⟩ := Option.isSome_iff_exists.1 known
  obtain ⟨id, numbered, -⟩ := Option.bind_eq_some_iff.1 found
  rw [nameAfter, numbered]
  rfl

theorem at?_resolve_name {type : SourceType}
    (found : (resolve settings index).at? offset = some type) :
    type.name = nameAfter settings index maxNameLinks offset := by
  obtain ⟨id, drafted, known, -, rfl⟩ := at?_resolve_eq_some_iff.1 found
  rw [nameAfter, known]
  rfl

theorem isPointer_finalShape (table : TypeTable) (type : SourceType) :
    { type with shape := table.finalShape type.shape }.isPointer = type.isPointer := by
  unfold SourceType.isPointer
  cases type.shape with
  | pointer target => cases target <;> rfl
  | base | array | composite => rfl

theorem any_isPointer_resolve {id : TypeId}
    (known : (draft settings index).number? target = some id) :
    ((resolve settings index).at? target).any (·.isPointer) =
      ((draft settings index).get? id).any (·.isPointer) := by
  have same : (resolve settings index).number? target = some id := known
  rw [at?, same, Option.bind_some, get?_resolve_eq]
  cases (draft settings index).get? id with
  | none => rfl
  | some type => exact isPointer_finalShape (draft settings index) type

theorem nameAfter_of_link (known : e.offset ∈ (resolve settings index).resolved)
    (link : NameLink index (resolve settings index) e target) (links : Nat) :
    nameAfter settings index (links + 1) e.offset =
      decorated (resolve settings index) e (nameAfter settings index links target) := by
  have reached := link.resolved
  rw [resolved_resolve] at known reached
  obtain ⟨type, found⟩ := Option.isSome_iff_exists.1 known
  obtain ⟨original, atTarget⟩ := Option.isSome_iff_exists.1 reached
  obtain ⟨id, numbered, stored⟩ := Option.bind_eq_some_iff.1 found
  obtain ⟨there, numberedThere, storedThere⟩ := Option.bind_eq_some_iff.1 atTarget
  have located := (draft_drafted settings index).located e.offset id type numbered stored
  have labelled := draft_labelled e link.listed type found
  have name : ∀ n, nameAfter settings index n target =
      displayName index (dropDangling (draft settings index)) n there := by
    intro n
    rw [nameAfter, numberedThere]
    rfl
  rw [nameAfter, numbered, Option.elim_some, displayName, get?_dropDangling_eq, stored]
  simp only [Option.map_some, located, EntryIndex.entry?_of_mem_entries link.listed]
  rcases link.renamed with tag | tag
  · -- the target has a type, so the pointer has not lost it
    obtain ⟨-, shape, -⟩ := labelled.pointer tag
    rw [link.refers, Option.bind_some, numberedThere] at shape
    simp only [tag, if_true, shape, finalShape, storedThere, Option.isNone_some, decorated, name,
      Bool.false_eq_true, if_false]
  · have other := tag.not_pointer
    have qualifies : e.tag = Tag.constType ∨ e.tag = Tag.volatileType := tag
    have numberThere : e.type?.bind (dropDangling (draft settings index)).number? = some there := by
      rw [link.refers]
      exact numberedThere
    rw [if_neg other, if_pos qualifies, numberThere, decorated, if_neg other, link.refers,
      Option.bind_some, any_isPointer_resolve numberedThere]
    simp only [get?_dropDangling_eq, storedThere, Option.map_some, Option.getD_some,
      Option.any_some, isPointer_finalShape, name]

theorem nameAfter_of_ends {type : SourceType}
    (found : (draft settings index).at? offset = some type)
    (ends : NameEnds index (resolve settings index) offset) (links : Nat) :
    nameAfter settings index (links + 1) offset = type.name := by
  obtain ⟨id, numbered, stored⟩ := Option.bind_eq_some_iff.1 found
  have located := (draft_drafted settings index).located offset id type numbered stored
  rw [nameAfter, numbered, Option.elim_some, displayName, get?_dropDangling_eq, stored]
  simp only [Option.map_some, located]
  split
  next => rfl
  next e atOffset =>
    have same : e.offset = offset := by simpa using List.find?_some atOffset
    subst same
    have listed := (EntryIndex.mem_entries_iff index e).2 atOffset
    have labelled := draft_labelled e listed type found
    have unresolved (renamed : e.tag = Tag.pointerType ∨ e.IsQualifier) (target : Nat)
        (refers : e.type? = some target) : (draft settings index).at? target = none := by
      rw [← Option.not_isSome_iff_eq_none]
      intro there
      refine ends e target rfl ⟨listed, renamed, refers, ?_⟩
      rw [resolved_resolve]
      exact there
    -- a pointer that links to nothing is called after a missing target either way
    split
    next tag =>
      obtain ⟨name, shape, numbers⟩ := labelled.pointer tag
      rw [name, shape]
      cases refers : e.type? with
      | none => rfl
      | some target =>
        obtain ⟨there, numberedThere⟩ := Option.isSome_iff_exists.1 (numbers target refers)
        have missing := unresolved (.inl tag) target refers
        rw [at?, numberedThere, Option.bind_some] at missing
        simp only [Option.bind_some, numberedThere, finalShape, missing, Option.isNone_none,
          if_true]
    split
    next tag =>
      obtain ⟨target, original, refers, there, -⟩ := labelled.qualifier tag
      rw [unresolved (.inr tag) target refers] at there
      cases there
    next => rfl

theorem draft_name_of_ends {type : SourceType}
    (found : (resolve settings index).at? offset = some type)
    (ends : NameEnds index (resolve settings index) offset) :
    ∃ drafted, (draft settings index).at? offset = some drafted ∧ drafted.name = type.name := by
  obtain ⟨id, drafted, numbered, stored, -⟩ := at?_resolve_eq_some_iff.1 found
  have atOffset : (draft settings index).at? offset = some drafted :=
    Option.bind_eq_some_iff.2 ⟨id, numbered, stored⟩
  exact ⟨drafted, atOffset,
    ((at?_resolve_name found).trans (nameAfter_of_ends atOffset ends 7)).symm⟩

theorem nameAfter_of_chain {last : Nat} {chain : List Entry}
    (leads : NameChain index (resolve settings index) offset chain last)
    (ends : NameEnds index (resolve settings index) last)
    (known : offset ∈ (resolve settings index).resolved) :
    ∃ final, (resolve settings index).at? last = some final ∧
      ∀ links : Nat, chain.length < links → nameAfter settings index links offset =
        chain.foldr (decorated (resolve settings index)) final.name := by
  induction leads with
  | nil offset =>
    obtain ⟨final, found⟩ := Option.isSome_iff_exists.1 known
    obtain ⟨drafted, atOffset, name⟩ := draft_name_of_ends found ends
    refine ⟨final, found, fun links enough => ?_⟩
    obtain ⟨links, rfl⟩ := Nat.exists_eq_add_one.2 enough
    rw [nameAfter_of_ends atOffset ends, name, List.foldr_nil]
  | cons link _ ih =>
    obtain ⟨final, found, names⟩ := ih ends link.resolved
    refine ⟨final, found, fun links enough => ?_⟩
    obtain ⟨links, rfl⟩ := Nat.exists_eq_add_one.2 (Nat.zero_lt_of_lt enough)
    rw [nameAfter_of_link known link, List.foldr_cons, names links (Nat.lt_of_succ_lt_succ enough)]

theorem exists_nameChain (links : Nat) (known : offset ∈ (resolve settings index).resolved) :
    ∃ chain last, NameChain index (resolve settings index) offset chain last ∧
      last ∈ (resolve settings index).resolved ∧
      (chain.length = links ∧
          nameAfter settings index links offset =
            chain.foldr (decorated (resolve settings index)) "..." ∨
        chain.length < links ∧ NameEnds index (resolve settings index) last) := by
  induction links generalizing offset with
  | zero => exact ⟨[], offset, .nil offset, known, .inl ⟨rfl, nameAfter_zero known⟩⟩
  | succ links ih =>
    by_cases ends : NameEnds index (resolve settings index) offset
    · exact ⟨[], offset, .nil offset, known, .inr ⟨Nat.succ_pos links, ends⟩⟩
    simp only [NameEnds, not_forall, not_not] at ends
    obtain ⟨e, target, rfl, link⟩ := ends
    obtain ⟨chain, last, leads, reached, outcome⟩ := ih link.resolved
    refine ⟨e :: chain, last, .cons link leads, reached, outcome.imp ?_ ?_⟩
    · rintro ⟨length, name⟩
      exact ⟨congrArg (· + 1) length, by rw [nameAfter_of_link known link, name, List.foldr_cons]⟩
    · rintro ⟨length, ends⟩
      exact ⟨Nat.succ_lt_succ length, ends⟩

theorem NameLink.unique {table : TypeTable} {other : Entry} {there : Nat}
    (link : NameLink index table e target) (second : NameLink index table other there)
    (same : e.offset = other.offset) : e = other ∧ target = there := by
  obtain rfl := EntryIndex.eq_of_mem_entries link.listed second.listed same
  exact ⟨rfl, Option.some.inj (link.refers.symm.trans second.refers)⟩

theorem name_of_link {last : Nat} {chain : List Entry} {type original : SourceType}
    (link : NameLink index (resolve settings index) e target)
    (found : (resolve settings index).at? e.offset = some type)
    (atTarget : (resolve settings index).at? target = some original)
    (leads : NameChain index (resolve settings index) e.offset chain last)
    (ends : NameEnds index (resolve settings index) last) (short : chain.length < 8) :
    type.name = decorated (resolve settings index) e original.name := by
  have known : e.offset ∈ (resolve settings index).resolved :=
    Option.isSome_iff_exists.2 ⟨type, found⟩
  generalize same : e.offset = offset at leads
  cases leads with
  | nil => exact absurd link (ends e target same)
  | cons second rest =>
    obtain ⟨rfl, rfl⟩ := link.unique second same
    obtain ⟨final, -, names⟩ := nameAfter_of_chain rest ends link.resolved
    -- the target ends with one link gone as it does with all of them left
    have name : type.name = decorated (resolve settings index) e
        (nameAfter settings index 7 target) :=
      (at?_resolve_name found).trans (nameAfter_of_link known link 7)
    rw [name, names 7 (Nat.lt_of_succ_lt_succ short), at?_resolve_name atTarget, maxNameLinks,
      names 8 (Nat.lt_of_succ_lt short)]

theorem nameEnds_of_unresolved {table : TypeTable} (listed : e ∈ index.entries)
    (unresolved : ∀ target : Nat, e.type? = some target → target ∉ table.resolved) :
    NameEnds index table e.offset := by
  intro other target same link
  obtain rfl := EntryIndex.eq_of_mem_entries link.listed listed same
  exact unresolved target link.refers link.resolved

theorem nameEnds_of_kept {table : TypeTable} (listed : e ∈ index.entries)
    (tag : e.tag = Tag.typedef ∨ e.tag = Tag.arrayType) : NameEnds index table e.offset := by
  intro other target same link
  obtain rfl := EntryIndex.eq_of_mem_entries link.listed listed same
  rcases link.renamed with renamed | renamed | renamed <;>
    simp [renamed, Tag.typedef, Tag.arrayType, Tag.pointerType, Tag.constType,
      Tag.volatileType] at tag

theorem resolve_labelled (listed : e ∈ index.entries)
    (ends : NameEnds index (resolve settings index) e.offset) {type : SourceType}
    (found : (resolve settings index).at? e.offset = some type) :
    ∃ drafted, drafted.name = type.name ∧ Labelled index (draft settings index) e drafted := by
  obtain ⟨drafted, atOffset, name⟩ := draft_name_of_ends found ends
  exact ⟨drafted, name, draft_labelled e listed drafted atOffset⟩

section Kinds

variable {last : Nat} {chain : List Entry} {type : SourceType}

theorem pointer_name (tag : e.tag = Tag.pointerType) (listed : e ∈ index.entries)
    (found : (resolve settings index).at? e.offset = some type)
    (leads : NameChain index (resolve settings index) e.offset chain last)
    (ends : NameEnds index (resolve settings index) last) (short : chain.length < 8) :
    type.name = (e.type?.bind (resolve settings index).at?).elim "void" (·.name) ++ " *" := by
  by_cases link : ∃ target, NameLink index (resolve settings index) e target
  · obtain ⟨target, link⟩ := link
    obtain ⟨original, atTarget⟩ := Option.isSome_iff_exists.1 link.resolved
    rw [name_of_link link found atTarget leads ends short, decorated, if_pos tag, link.refers,
      Option.bind_some, atTarget, Option.elim_some]
  · have unresolved (target : Nat) (refers : e.type? = some target) :
        target ∉ (resolve settings index).resolved :=
      fun there => link ⟨target, listed, .inl tag, refers, there⟩
    have absent : e.type?.bind (resolve settings index).at? = none := by
      rw [Option.bind_eq_none_iff]
      exact fun target refers => Option.not_isSome_iff_eq_none.1 (unresolved target refers)
    obtain ⟨drafted, same, labelled⟩ :=
      resolve_labelled listed (nameEnds_of_unresolved listed unresolved) found
    rw [absent, ← same, (labelled.pointer tag).1]
    rfl

theorem qualifier_name (tag : e.IsQualifier) (listed : e ∈ index.entries)
    (found : (resolve settings index).at? e.offset = some type)
    (leads : NameChain index (resolve settings index) e.offset chain last)
    (ends : NameEnds index (resolve settings index) last) (short : chain.length < 8) :
    ∃ target original, e.type? = some target ∧
      (resolve settings index).at? target = some original ∧
      type.name = if original.isPointer then original.name ++ " " ++ qualifierName e.tag
        else qualifierName e.tag ++ " " ++ original.name := by
  obtain ⟨target, original, refers, atTarget, -⟩ :=
    resolve_aliasesMatched settings index e listed (.inr tag) type found
  have link : NameLink index (resolve settings index) e target :=
    ⟨listed, .inr tag, refers, Option.isSome_iff_exists.2 ⟨original, atTarget⟩⟩
  refine ⟨target, original, refers, atTarget, ?_⟩
  rw [name_of_link link found atTarget leads ends short, decorated, if_neg tag.not_pointer, refers,
    Option.bind_some, atTarget, Option.any_some]

theorem typedef_name (tag : e.tag = Tag.typedef) (listed : e ∈ index.entries)
    (found : (resolve settings index).at? e.offset = some type) : e.name? = some type.name := by
  obtain ⟨drafted, same, labelled⟩ :=
    resolve_labelled listed (nameEnds_of_kept listed (.inl tag)) found
  rw [labelled.typedef tag, same]

end Kinds

/-- A pointer or a qualifier from which fewer than eight links lead on is named after its target's
own name. A typedef keeps its name, and is a pointer if its target is one. Every name comes to an
end, in a cycle after eight links. -/
theorem resolve_names (listed : e ∈ index.entries) {type : SourceType}
    (found : (resolve settings index).at? e.offset = some type) :
    ((∃ chain last, NameChain index (resolve settings index) e.offset chain last ∧
        NameEnds index (resolve settings index) last ∧ chain.length < 8) →
      (e.tag = Tag.pointerType →
        type.name = (e.type?.bind (resolve settings index).at?).elim "void" (·.name) ++ " *") ∧
      (e.tag = Tag.constType ∨ e.tag = Tag.volatileType → ∃ target original,
        e.type? = some target ∧ (resolve settings index).at? target = some original ∧
        type.name = if original.isPointer then original.name ++ " " ++ qualifierName e.tag
          else qualifierName e.tag ++ " " ++ original.name)) ∧
    (e.tag = Tag.typedef → e.name? = some type.name ∧ ∃ target original,
      e.type? = some target ∧ (resolve settings index).at? target = some original ∧
      type.isPointer = original.isPointer) ∧
    ∃ chain last, NameChain index (resolve settings index) e.offset chain last ∧
      (chain.length = 8 ∧ type.name = chain.foldr (decorated (resolve settings index)) "..." ∨
        chain.length < 8 ∧ NameEnds index (resolve settings index) last ∧
          ∃ final, (resolve settings index).at? last = some final ∧
            type.name = chain.foldr (decorated (resolve settings index)) final.name) := by
  have known : e.offset ∈ (resolve settings index).resolved :=
    Option.isSome_iff_exists.2 ⟨type, found⟩
  have name := at?_resolve_name found
  refine ⟨?_, fun tag => ⟨typedef_name tag listed found, ?_⟩, ?_⟩
  · rintro ⟨chain, last, leads, ends, short⟩
    exact ⟨fun tag => pointer_name tag listed found leads ends short,
      fun tag => qualifier_name tag listed found leads ends short⟩
  · obtain ⟨target, original, refers, atTarget, aliased⟩ :=
      resolve_aliasesMatched settings index e listed (.inl tag) type found
    exact ⟨target, original, refers, atTarget, by simp only [SourceType.isPointer, aliased.shape]⟩
  · obtain ⟨chain, last, leads, -, ⟨length, cut⟩ | ⟨length, ends⟩⟩ :=
      exists_nameChain maxNameLinks known
    · exact ⟨chain, last, leads, .inl ⟨length, name.trans cut⟩⟩
    · obtain ⟨final, atLast, names⟩ := nameAfter_of_chain leads ends known
      exact ⟨chain, last, leads, .inr ⟨length, ends, final, atLast, name.trans (names 8 length)⟩⟩

def storey (offset tag : Nat) : Entry :=
  { referring offset tag "" (offset - 4) with unit := 11 }

def tower : EntryIndex :=
  indexOf [⟨16, Tag.pointerType, 0, 1, none, []⟩, referring 20 Tag.typedef "handle" 16,
    storey 24 Tag.constType, storey 28 Tag.pointerType, storey 32 Tag.volatileType,
    storey 36 Tag.pointerType, storey 40 Tag.pointerType, storey 44 Tag.pointerType,
    storey 48 Tag.constType, storey 52 Tag.pointerType, referring 56 Tag.pointerType "" 56]

theorem resolve_names_tower :
    ∃ e type, e ∈ tower.entries ∧ (resolve Settings.default tower).at? e.offset = some type ∧
      e.tag = Tag.constType ∧
      (∃ chain last, NameChain tower (resolve Settings.default tower) e.offset chain last ∧
        NameEnds tower (resolve Settings.default tower) last ∧ chain.length = 7) ∧
      type.name = "handle const * volatile * * * const" ∧
      ∃ target original, e.type? = some target ∧
        (resolve Settings.default tower).at? target = some original ∧
        type.name = if original.isPointer then original.name ++ " " ++ qualifierName e.tag
          else qualifierName e.tag ++ " " ++ original.name := by
  have facts : ∀ e ∈ [storey 48 Tag.constType, storey 44 Tag.pointerType,
      storey 40 Tag.pointerType, storey 36 Tag.pointerType, storey 32 Tag.volatileType,
      storey 28 Tag.pointerType, storey 24 Tag.constType],
      e ∈ tower.entries ∧
        (e.tag = Tag.pointerType ∨ e.tag = Tag.constType ∨ e.tag = Tag.volatileType) ∧
        e.type? = some (e.offset - 4) ∧
        ((resolve Settings.default tower).at? (e.offset - 4)).isSome := by
    decide +kernel
  have links := fun e among =>
    NameLink.mk (facts e among).1 (facts e among).2.1 (facts e among).2.2.1 (facts e among).2.2.2
  simp only [List.forall_mem_cons] at links
  obtain ⟨seventh, sixth, fifth, fourth, third, second, first, -⟩ := links
  have leads : NameChain tower (resolve Settings.default tower) 48 _ 20 :=
    .cons seventh (.cons sixth (.cons fifth (.cons fourth (.cons third (.cons second
      (.cons first (.nil 20)))))))
  have bottom : { referring 20 Tag.typedef "handle" 16 with unit := 11 } ∈ tower.entries := by
    decide +kernel
  have ends : NameEnds tower (resolve Settings.default tower) 20 :=
    nameEnds_of_kept bottom (.inl rfl)
  have found : (resolve Settings.default tower).at? 48 = some
      { SourceType.plain "handle const * volatile * * * const" 4 (.pointer (some 6)) 48 with
        isConst := true } := by
    decide +kernel
  exact ⟨storey 48 Tag.constType, _, seventh.listed, found, rfl, ⟨_, 20, leads, ends, rfl⟩, rfl,
    ((resolve_names seventh.listed found).1 ⟨_, 20, leads, ends, by decide⟩).2 (.inl rfl)⟩

-- One link more, and links without an end: both names are cut after the eighth.
example : [52, 56].map (fun offset =>
      ((resolve Settings.default tower).at? offset).map (·.name)) =
    [some "... const * volatile * * * const *", some "... * * * * * * * *"] := by
  decide +kernel

end Drafts

end TypeTable

end SourceScope
