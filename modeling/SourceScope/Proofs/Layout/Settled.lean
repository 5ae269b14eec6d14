import SourceScope.Proofs.Layout.Members

set_option autoImplicit false

namespace SourceScope.TypeTable

/-- Whether a set has every offset that gets a type from it, incomplete composites left out. -/
def Saturated (index : EntryIndex) (known : Set Nat) : Prop :=
  ∀ entry ∈ index.entries,
    IsBase entry ∨ Ready (memberOwners none index.entries) false known entry →
      entry.offset ∈ known

def Settled (index : EntryIndex) (offset : Nat) : Prop :=
  ∀ known : Set Nat, Saturated index known → offset ∈ known

def Precedes (index : EntryIndex) (first second : Nat) : Prop :=
  [first, second].Sublist (index.entries.map (·.offset))

section Saturation

variable {table : TypeTable} {settings : Settings} {index : EntryIndex} {entry : Entry}

theorem resolved_pass_subset {known : Set Nat} (saturated : Saturated index known)
    (drafted : table.Drafted) (within : table.resolved ⊆ known) :
    (pass settings index (memberOwners none index.entries) index.entries false table).resolved ⊆
      known := by
  refine pass_induction (P := fun reached => reached.resolved ⊆ known)
    (fun reached there sub entry listed offset found => ?_) drafted within
  rcases (mem_resolved_passEntry there offset).1 found with old | ⟨rfl, ready⟩
  · exact sub old
  · exact saturated entry listed (.inr (ready.mono sub id))

theorem mem_resolved_pass_of_ready {last : Bool} {owners : List (Nat × Entry)}
    (drafted : table.Drafted) {entries : List Entry} (listed : entry ∈ entries)
    (ready : Ready owners last table.resolved entry) :
    entry.offset ∈ (pass settings index owners entries last table).resolved := by
  obtain ⟨before, after, rfl⟩ := List.append_of_mem listed
  have reached := drafted.pass settings index owners before last
  have visited := reached.passEntry settings index owners last entry
  rw [pass_append, pass, List.foldl_cons]
  refine (extends_pass visited after).resolved ?_
  rw [mem_resolved_passEntry reached]
  exact .inr ⟨rfl, ready.mono (extends_pass drafted before).resolved id⟩

theorem settled_of_mem_early {count offset : Nat}
    (found : offset ∈ (early settings index count).resolved) : Settled index offset := by
  intro known saturated
  suffices within : (early settings index count).resolved ⊆ known from within found
  clear found
  induction count with
  | zero =>
    intro offset start
    obtain ⟨entry, listed, rfl, base⟩ := (mem_resolved_early_zero settings index offset).1 start
    exact saturated entry listed (.inl base)
  | succ count ih =>
    rw [early_succ]
    exact resolved_pass_subset saturated (early_drafted settings index count) ih

def typed (settings : Settings) (index : EntryIndex) (count : Nat) : List Entry :=
  index.entries.filter fun entry => ((early settings index count).at? entry.offset).isSome

theorem mem_typed {count : Nat} :
    entry ∈ typed settings index count ↔
      entry ∈ index.entries ∧ entry.offset ∈ (early settings index count).resolved :=
  List.mem_filter

theorem early_subset_succ (settings : Settings) (index : EntryIndex) (count : Nat) :
    (early settings index count).resolved ⊆ (early settings index (count + 1)).resolved :=
  resolved_early_mono settings settings index (Nat.le_succ count)

theorem typed_length_lt (listed : entry ∈ index.entries) {count : Nat}
    (before : entry.offset ∉ (early settings index count).resolved)
    (after : entry.offset ∈ (early settings index (count + 1)).resolved) :
    (typed settings index count).length < (typed settings index (count + 1)).length := by
  have grows : (typed settings index count).Sublist (typed settings index (count + 1)) :=
    List.monotone_filter_right _ fun entry known => early_subset_succ settings index count known
  refine Nat.lt_of_le_of_ne grows.length_le fun same => before ?_
  have member := mem_typed.2 ⟨listed, after⟩
  rw [← grows.eq_of_length same] at member
  exact (mem_typed.1 member).2

theorem saturated_or_typed (settings : Settings) (index : EntryIndex) (count : Nat) :
    Saturated index (early settings index count).resolved ∨
      count ≤ (typed settings index count).length := by
  induction count with
  | zero => exact .inr (Nat.zero_le _)
  | succ count ih =>
    have drafted := early_drafted settings index count
    have grows := early_subset_succ settings index count
    by_cases saturated : Saturated index (early settings index count).resolved
    next =>
      -- a pass adds nothing to a saturated table, so it stays saturated
      have same : (early settings index (count + 1)).resolved =
          (early settings index count).resolved := by
        refine Set.Subset.antisymm ?_ grows
        rw [early_succ]
        exact resolved_pass_subset saturated drafted fun _ => id
      rw [same]
      exact .inl saturated
    next =>
      right
      have counted := ih.resolve_left saturated
      simp only [Saturated, not_forall] at saturated
      obtain ⟨entry, listed, cause, unknown⟩ := saturated
      have added : entry.offset ∈ (early settings index (count + 1)).resolved := by
        rcases cause with base | ready
        · have start := (mem_resolved_early_zero settings index _).2 ⟨entry, listed, rfl, base⟩
          exact absurd (resolved_early_mono settings settings index (Nat.zero_le count) start) unknown
        · rw [early_succ]
          exact mem_resolved_pass_of_ready drafted listed ready
      have more := typed_length_lt listed unknown added
      omega

theorem early_saturated {count : Nat} (enough : index.entries.length ≤ count) :
    Saturated index (early settings index count).resolved := by
  rcases saturated_or_typed settings index count with saturated | counted
  · exact saturated
  · have part : (typed settings index count).Sublist index.entries := List.filter_sublist
    have all : typed settings index count = index.entries :=
      part.eq_of_length_le (Nat.le_trans enough counted)
    exact fun entry listed _ => (mem_typed.1 (all ▸ listed)).2

theorem mem_early_iff_settled {count offset : Nat} (enough : index.entries.length ≤ count) :
    offset ∈ (early settings index count).resolved ↔ Settled index offset :=
  ⟨settled_of_mem_early, fun settled => settled _ (early_saturated enough)⟩

end Saturation

section LastPass

variable {table : TypeTable} {settings : Settings} {index : EntryIndex} {entry : Entry}
  {target : Nat}

theorem not_isBase_of_derives (derives : entry.Derives) : ¬ IsBase entry := by
  rintro ⟨tag | tag, -⟩ <;> rcases derives with ⟨other, -⟩ | other | other | other <;>
    simp [tag, Tag.baseType, Tag.enumerationType, Tag.typedef, Tag.arrayType, Tag.constType,
      Tag.volatileType] at other

theorem ready_iff_target (derives : entry.Derives) (refers : entry.type? = some target)
    {owners : List (Nat × Entry)} {last : Bool} {known : Set Nat} :
    Ready owners last known entry ↔ target ∈ known := by
  have plain : entry.tag ≠ Tag.pointerType ∧ isCompositeTag entry.tag = false := by
    rcases derives with ⟨tag, -⟩ | tag | tag | tag <;>
      simp [tag, isCompositeTag, Tag.pointerType, Tag.structureType, Tag.unionType, Tag.typedef,
        Tag.arrayType, Tag.constType, Tag.volatileType]
  constructor
  · intro ready
    cases ready with
    | pointer tag => exact absurd tag plain.1
    | derived _ also resolved => exact Option.some.inj (refers.symm.trans also) ▸ resolved
    | whole tag | partly tag => simp [plain.2] at tag
  · exact .derived derives refers

def Grounded (index : EntryIndex) (table : TypeTable) : Prop :=
  ∀ entry ∈ index.entries, entry.Derives → ∀ target : Nat, entry.type? = some target →
    entry.offset ∈ table.resolved → target ∈ table.resolved

theorem Grounded.passEntry (grounded : Grounded index table) (drafted : table.Drafted)
    (owners : List (Nat × Entry)) (last : Bool) {visited : Entry}
    (listed : visited ∈ index.entries) :
    Grounded index (passEntry settings index owners last table visited) := by
  intro entry among derives target refers found
  refine (extends_passEntry drafted).resolved ?_
  rcases (mem_resolved_passEntry drafted _).1 found with known | ⟨same, ready⟩
  · exact grounded entry among derives target refers known
  · obtain rfl := EntryIndex.eq_of_mem_entries among listed same
    exact (ready_iff_target derives refers).1 ready

theorem early_grounded (settings : Settings) (index : EntryIndex) (count : Nat) :
    Grounded index (early settings index count) := by
  induction count with
  | zero =>
    intro entry listed derives target refers start
    obtain ⟨other, among, same, base⟩ :=
      (mem_resolved_early_zero settings index entry.offset).1 start
    obtain rfl := EntryIndex.eq_of_mem_entries among listed same
    exact absurd base (not_isBase_of_derives derives)
  | succ count ih =>
    rw [early_succ]
    exact pass_induction (fun _ drafted grounded _ listed => grounded.passEntry drafted _ false listed)
      (early_drafted settings index count) ih

theorem mem_resolved_pass_iff_target (grounded : Grounded index table) (drafted : table.Drafted)
    (owners : List (Nat × Entry)) {before after : List Entry}
    (entries : index.entries = before ++ entry :: after)
    (rest : ∀ other ∈ after, other.offset ≠ entry.offset) (derives : entry.Derives)
    (refers : entry.type? = some target) :
    entry.offset ∈ (pass settings index owners (before ++ entry :: after) true table).resolved ↔
      target ∈ (pass settings index owners before true table).resolved := by
  have reached := drafted.pass settings index owners before true
  have visited := reached.passEntry settings index owners true entry
  have groundedThere : Grounded index (pass settings index owners before true table) :=
    pass_induction (fun _ there kept other among =>
      kept.passEntry there owners true (by simp [entries, among])) drafted grounded
  rw [pass_append]
  refine (mem_resolved_pass_of_unlisted visited rest).trans ?_
  rw [mem_resolved_passEntry reached, ready_iff_target derives refers]
  constructor
  · rintro (known | ⟨-, known⟩)
    · exact groundedThere entry (by simp [entries]) derives target refers known
    · exact known
  · exact fun known => .inr ⟨rfl, known⟩

theorem mem_before_of_sublist {first second : Nat} {before after : List Nat}
    (order : [first, second].Sublist (before ++ second :: after)) (rest : second ∉ after) :
    first ∈ before := by
  obtain ⟨left, right, split, inBefore, inAfter⟩ := List.sublist_append_iff.1 order
  cases left with
  | cons head tail =>
    rw [List.cons_append, List.cons.injEq] at split
    rw [split.1]
    exact inBefore.subset (List.mem_cons_self ..)
  | nil =>
    -- the second would have to be found again behind its place
    rw [List.nil_append] at split
    subst split
    rcases List.sublist_cons_iff.1 inAfter with later | ⟨tail, same, later⟩
    · exact absurd (later.subset (by simp)) rest
    · rw [List.cons.injEq] at same
      exact absurd (later.subset (by simp [← same.2])) rest

theorem mem_resolved_before_iff (drafted : table.Drafted) (owners : List (Nat × Entry))
    {before after : List Entry} (entries : index.entries = before ++ entry :: after)
    (rest : ∀ other ∈ after, other.offset ≠ entry.offset)
    (once : (index.entries.map (·.offset)).count target ≤ 1) :
    target ∈ (pass settings index owners before true table).resolved ↔
      target ∈ (pass settings index owners (before ++ entry :: after) true table).resolved ∧
        (target ∈ table.resolved ∨ Precedes index target entry.offset) := by
  have reached := drafted.pass settings index owners before true
  rw [pass_append]
  constructor
  · intro known
    refine ⟨(extends_pass reached _).resolved known, ?_⟩
    by_cases listed : ∃ other ∈ before, other.offset = target
    · obtain ⟨other, among, rfl⟩ := listed
      right
      rw [Precedes, entries, List.map_append, List.map_cons]
      exact (List.singleton_sublist.2 (List.mem_map_of_mem among)).append
        (List.singleton_sublist.2 (List.mem_cons_self ..))
    · left
      simp only [not_exists, not_and] at listed
      exact (mem_resolved_pass_of_unlisted drafted listed).1 known
  · rintro ⟨known, start | order⟩
    · exact (extends_pass drafted before).resolved start
    · rw [Precedes, entries, List.map_append, List.map_cons] at order
      rw [entries, List.map_append, List.map_cons] at once
      have among := mem_before_of_sublist order (by simpa using rest)
      have counted := List.count_pos_iff.2 among
      rw [List.count_append] at once
      have missing : target ∉ (entry :: after).map (·.offset) :=
        List.count_eq_zero.1 (by rw [List.map_cons]; omega)
      have unlisted : ∀ other ∈ entry :: after, other.offset ≠ target := fun other listed same =>
        missing (List.mem_map.2 ⟨other, listed, same⟩)
      exact (mem_resolved_pass_of_unlisted reached unlisted).1 known

theorem exists_last (listed : entry ∈ index.entries) :
    ∃ before after, index.entries = before ++ entry :: after ∧
      ∀ other ∈ after, other.offset ≠ entry.offset := by
  obtain ⟨after, before, split, first⟩ := List.eq_append_cons_of_mem (List.mem_reverse.2 listed)
  have entries : index.entries = before.reverse ++ entry :: after.reverse := by
    rw [← List.reverse_reverse index.entries, split]
    simp
  refine ⟨_, _, entries, fun other among same => first ?_⟩
  rw [List.mem_reverse] at among
  rwa [EntryIndex.eq_of_mem_entries listed (by simp [entries, among]) same.symm]

end LastPass

/-- With more passes than entries, an entry that refers to a type has one itself if that type is
settled. Otherwise the last pass decides: it gives the entry a type if the other comes before it. -/
theorem derived_resolved_iff {settings : Settings} {index : EntryIndex}
    (enough : index.size < settings.typePasses.toNat) {entry : Entry}
    (listed : entry ∈ index.entries) (derives : entry.Derives) {target : Nat}
    (refers : entry.type? = some target) :
    (Settled index target → ((resolve settings index).at? entry.offset).isSome) ∧
      ((index.entries.map (·.offset)).count target ≤ 1 →
        (((resolve settings index).at? entry.offset).isSome ↔
          ((resolve settings index).at? target).isSome ∧
            (Settled index target ∨ Precedes index target entry.offset))) := by
  obtain ⟨count, passes⟩ : ∃ count, settings.typePasses.toNat = count + 1 :=
    ⟨settings.typePasses.toNat - 1, by omega⟩
  have length : index.entries.length ≤ count := by
    have shorter : index.entries.length ≤ index.pushed.reverse.length := List.length_filterMap_le ..
    rw [List.length_reverse] at shorter
    rw [EntryIndex.size] at enough
    omega
  have settled (offset : Nat) : offset ∈ (early settings index count).resolved ↔
      Settled index offset := mem_early_iff_settled length
  have drafted := early_drafted settings index count
  have types (offset : Nat) : ((resolve settings index).at? offset).isSome ↔
      offset ∈ (pass settings index (memberOwners none index.entries) index.entries true
        (early settings index count)).resolved := by
    rw [← draft_eq_early passes, ← resolved_resolve]
    rfl
  -- the visit that counts is the entry's last one in the last pass
  obtain ⟨before, after, entries, rest⟩ := exists_last listed
  have takes : ((resolve settings index).at? entry.offset).isSome ↔
      target ∈ (pass settings index (memberOwners none index.entries) before true
        (early settings index count)).resolved := by
    rw [types, ← mem_resolved_pass_iff_target (early_grounded settings index count) drafted
      (memberOwners none index.entries) entries rest derives refers, ← entries]
  refine ⟨fun grounded => ?_, fun once => ?_⟩
  · exact takes.2 ((extends_pass drafted before).resolved ((settled target).2 grounded))
  · refine (takes.trans (mem_resolved_before_iff drafted _ entries rest once)).trans
      (and_congr ?_ (or_congr (settled target) Iff.rfl))
    rw [← entries]
    exact (types target).symm

def typedefsAroundBox : EntryIndex :=
  indexOf [intEntry, referring 24 Tag.typedef "early" 32, boxEntry,
    referring 36 Tag.member "a" 16, referring 40 Tag.member "r" 64,
    ⟨64, 0x10, 0, 1, none, [(Attr.type, .reference 16)]⟩, referring 72 Tag.typedef "late" 32]

theorem derived_resolved_typedefsAroundBox :
    typedefsAroundBox.size < (withPasses 10).typePasses.toNat ∧
      (typedefsAroundBox.entries.map (·.offset)).count 32 ≤ 1 ∧
      Precedes typedefsAroundBox 32 72 ∧
      ((resolve (withPasses 10) typedefsAroundBox).at? 72).isSome := by
  have enough : typedefsAroundBox.size < (withPasses 10).typePasses.toNat := by decide +kernel
  have once : (typedefsAroundBox.entries.map (·.offset)).count 32 ≤ 1 := by decide +kernel
  have order : Precedes typedefsAroundBox 32 72 := by
    unfold Precedes
    decide +kernel
  have listed : { referring 72 Tag.typedef "late" 32 with unit := 11 } ∈
      typedefsAroundBox.entries := by decide +kernel
  have box : ((resolve (withPasses 10) typedefsAroundBox).at? 32).isSome := by decide +kernel
  exact ⟨enough, once, order,
    ((derived_resolved_iff enough listed (.inl ⟨rfl, rfl⟩) rfl).2 once).2 ⟨box, .inr order⟩⟩

theorem typedefsAroundBox_early_missing :
    typedefsAroundBox.size < (withPasses 10).typePasses.toNat ∧
      ∃ entry ∈ typedefsAroundBox.entries, entry.tag = Tag.typedef ∧ entry.name?.isSome ∧
        entry.type? = some 32 ∧
        ((resolve (withPasses 10) typedefsAroundBox).at? 32).isSome ∧
        (resolve (withPasses 10) typedefsAroundBox).at? entry.offset = none := by
  have missing : ((resolve (withPasses 10) typedefsAroundBox).at? 24).isNone := by decide +kernel
  refine ⟨by decide +kernel, { referring 24 Tag.typedef "early" 32 with unit := 11 },
    by decide +kernel, rfl, rfl, rfl, by decide +kernel, Option.isNone_iff_eq_none.1 missing⟩

end SourceScope.TypeTable
