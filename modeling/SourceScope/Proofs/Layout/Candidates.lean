import Mathlib.Data.List.TakeWhile
import SourceScope.Proofs.Layout.Members

set_option autoImplicit false

namespace SourceScope

def Entry.isMember (e : Entry) : Bool := e.tag == Tag.member

namespace TypeTable

theorem membersOf_cons (owner : Nat) (e : Entry) (owners : List (Nat × Entry)) (offset : Nat) :
    membersOf ((owner, e) :: owners) offset =
      if owner = offset then e :: membersOf owners offset else membersOf owners offset := by
  by_cases same : owner = offset <;> simp [membersOf, same]

theorem membersOf_of_unowned {owner : Option Nat} {offset : Nat} (other : owner ≠ some offset)
    {entries : List Entry} (elsewhere : ∀ e ∈ entries, e.offset ≠ offset) :
    membersOf (memberOwners owner entries) offset = [] := by
  fun_induction memberOwners owner entries with
  | case1 => rfl
  | case2 owner e rest composite ih =>
    obtain ⟨here, later⟩ := List.forall_mem_cons.1 elsewhere
    exact ih (by simpa using here) later
  | case3 e rest _ _ found ih =>
    rw [membersOf_cons, if_neg (by simpa using other)]
    exact ih other (List.forall_mem_cons.1 elsewhere).2
  | case4 e rest _ _ ih => exact ih other (List.forall_mem_cons.1 elsewhere).2
  | case5 owner e rest _ _ ih => exact ih nofun (List.forall_mem_cons.1 elsewhere).2

theorem isMember_of_composite {e : Entry} (composite : isCompositeTag e.tag = true) :
    e.isMember = false := by
  rw [Entry.isMember, beq_eq_false_iff_ne]
  intro member
  simp [member, isCompositeTag, Tag.member, Tag.structureType, Tag.unionType] at composite

theorem membersOf_run {offset : Nat} {after : List Entry}
    (elsewhere : ∀ e ∈ after, e.offset ≠ offset) :
    membersOf (memberOwners (some offset) after) offset = after.takeWhile (·.isMember) := by
  induction after with
  | nil => rfl
  | cons e rest ih =>
    obtain ⟨here, later⟩ := List.forall_mem_cons.1 elsewhere
    have ends (owner : Option Nat) (other : owner ≠ some offset) :
        membersOf (memberOwners owner rest) offset = [] := membersOf_of_unowned other later
    unfold memberOwners
    split
    next composite =>
      rw [ends _ (by simpa using here), List.takeWhile_cons, isMember_of_composite composite]
      rfl
    next =>
      split
      next member =>
        rw [membersOf_cons, if_pos rfl, ih later, List.takeWhile_cons]
        simp [Entry.isMember, member]
      next other =>
        rw [ends none (by simp), List.takeWhile_cons]
        simp [Entry.isMember, other]

theorem membersOf_split {owner : Option Nat} {e : Entry} (other : owner ≠ some e.offset)
    (composite : isCompositeTag e.tag = true) {before after : List Entry}
    (first : ∀ x ∈ before, x.offset ≠ e.offset) (rest : ∀ x ∈ after, x.offset ≠ e.offset) :
    membersOf (memberOwners owner (before ++ e :: after)) e.offset =
      after.takeWhile (·.isMember) := by
  induction before generalizing owner with
  | nil =>
    rw [List.nil_append, memberOwners.eq_def]
    simp [composite, membersOf_run rest]
  | cons x more ih =>
    obtain ⟨here, later⟩ := List.forall_mem_cons.1 first
    have next (owner : Option Nat) (other : owner ≠ some e.offset) :
        membersOf (memberOwners owner (more ++ e :: after)) e.offset =
          after.takeWhile (·.isMember) := ih other later
    rw [List.cons_append]
    unfold memberOwners
    split
    next => exact next _ (by simpa using here)
    next =>
      split
      next =>
        split
        next =>
          rw [membersOf_cons, if_neg (by simpa using other)]
          exact next _ other
        next => exact next _ other
      next => exact next none (by simp)

end TypeTable

namespace EntryIndex

def childrenTagged (index : EntryIndex) (tag offset : Nat) : List Entry :=
  ((index.children offset).filterMap index.entry?).filter (·.tag == tag)

theorem Descends.of_append {later earlier : List Entry} (descends : Descends (later ++ earlier)) :
    Descends earlier := by
  induction later with
  | nil => exact descends
  | cons e rest ih => exact ih descends.2

theorem Descends.exists_parent {entries : List Entry} (descends : Descends entries) {e : Entry}
    (member : e ∈ entries) {offset : Nat} (child : e.parent = some offset) :
    ∃ parent ∈ entries, parent.offset = offset := by
  induction entries with
  | nil => cases member
  | cons first earlier ih =>
    rcases List.mem_cons.1 member with rfl | inside
    · obtain ⟨parent, found, same, -⟩ := descends.1 offset child
      exact ⟨parent, List.mem_cons_of_mem _ found, same⟩
    · obtain ⟨parent, found, same⟩ := ih descends.2 inside
      exact ⟨parent, List.mem_cons_of_mem _ found, same⟩

section

variable {pushes : List Push} {before after : List Entry} {e : Entry}

theorem childrenTagged_eq (distinct : (History.of pushes).Distinct) (tag offset : Nat) :
    (build pushes).childrenTagged tag offset =
      (build pushes).entries.filter fun e => e.parent == some offset && e.tag == tag := by
  have nested := nested_build distinct
  have found : ∀ e ∈ (History.of pushes).accepted.filter (·.parent = some offset),
      (EntryIndex.entry? (build pushes) ∘ (·.offset)) e = some e :=
    fun e member => nested.found e (List.mem_filter.1 member).1
  rw [childrenTagged, nested.children, List.filterMap_map, List.filterMap_congr found,
    List.filterMap_some, List.filter_filter, nested.entries]
  refine List.filter_congr fun e _ => ?_
  rw [Bool.and_comm, beq_eq_decide e.parent]

theorem offset_ne (distinct : (History.of pushes).Distinct)
    (entries : (build pushes).entries = before ++ e :: after) :
    (∀ x ∈ before, x.offset ≠ e.offset) ∧ ∀ x ∈ after, x.offset ≠ e.offset := by
  rw [(nested_build distinct).entries] at entries
  have separate : ((before ++ e :: after).map (·.offset)).Nodup := entries ▸ distinct
  simp only [List.map_append, List.map_cons, List.nodup_append, List.nodup_cons] at separate
  refine ⟨fun x member same => ?_, fun x member same => ?_⟩
  · exact separate.2.2 _ (List.mem_map_of_mem member) _ (by simp) same
  · exact separate.2.1.1 (List.mem_map.2 ⟨x, member, same⟩)

theorem parent_ne_of_before (distinct : (History.of pushes).Distinct)
    (entries : (build pushes).entries = before ++ e :: after) :
    ∀ x ∈ before, x.parent ≠ some e.offset := by
  intro x member child
  have order : (History.of pushes).recent ++ (History.of pushes).past =
      (e :: after).reverse ++ before.reverse := by
    rw [← List.reverse_append, ← entries, (nested_build distinct).entries, History.accepted,
      List.reverse_reverse]
  have descends := History.of_descends pushes
  rw [order] at descends
  obtain ⟨parent, found, same⟩ :=
    descends.of_append.exists_parent (List.mem_reverse.2 member) child
  exact (offset_ne distinct entries).1 parent (List.mem_reverse.1 found) same

theorem memberEntries_eq (distinct : (History.of pushes).Distinct)
    (entries : (build pushes).entries = before ++ e :: after)
    (composite : TypeTable.isCompositeTag e.tag = true) :
    (build pushes).memberEntries e.offset = after.takeWhile (·.isMember) := by
  obtain ⟨first, rest⟩ := offset_ne distinct entries
  rw [memberEntries, entries, TypeTable.membersOf_split (by simp) composite first rest]

theorem childrenTagged_member (distinct : (History.of pushes).Distinct)
    (entries : (build pushes).entries = before ++ e :: after)
    (composite : TypeTable.isCompositeTag e.tag = true) :
    (build pushes).childrenTagged Tag.member e.offset =
      after.filter fun m => m.parent == some e.offset && m.isMember := by
  have strangers : before.filter (fun m => m.parent == some e.offset && m.isMember) = [] := by
    refine List.filter_eq_nil_iff.2 fun x member => ?_
    simp [parent_ne_of_before distinct entries x member]
  have other : e.isMember = false := TypeTable.isMember_of_composite composite
  rw [childrenTagged_eq distinct, entries]
  change (before ++ e :: after).filter (fun m => m.parent == some e.offset && m.isMember) = _
  simp [strangers, other]

theorem nodup_after (distinct : (History.of pushes).Distinct)
    (entries : (build pushes).entries = before ++ e :: after) : after.Nodup := by
  rw [(nested_build distinct).entries] at entries
  have separate : ((before ++ e :: after).map (·.offset)).Nodup := entries ▸ distinct
  have kept : (e :: after).Sublist (before ++ e :: after) := List.sublist_append_right ..
  exact ((separate.of_map _).sublist kept).of_cons

theorem takeWhile_eq_filter_iff {entries : List Entry} (separate : entries.Nodup)
    {kind : Entry → Bool} :
    entries.takeWhile (·.isMember) = entries.filter (fun m => kind m && m.isMember) ↔
      (∀ m ∈ entries.takeWhile (·.isMember), kind m = true) ∧
        ∀ m ∈ entries.dropWhile (·.isMember), m.isMember = true → kind m = false := by
  rw [← List.takeWhile_append_dropWhile (p := (·.isMember)) (l := entries)] at separate
  constructor
  · intro same
    refine ⟨fun m inRun => ?_, fun m behind member => ?_⟩
    · rw [same] at inRun
      exact (Bool.and_eq_true_iff.1 (List.mem_filter.1 inRun).2).1
    · by_contra other
      have inRun : m ∈ entries.takeWhile (·.isMember) := by
        rw [same]
        refine List.mem_filter.2 ⟨(List.dropWhile_sublist _).subset behind, ?_⟩
        simpa [member] using other
      exact (List.nodup_append.1 separate).2.2 m inRun m behind rfl
  · rintro ⟨inRun, others⟩
    have run : (entries.takeWhile (·.isMember)).filter (fun m => kind m && m.isMember) =
        entries.takeWhile (·.isMember) := by
      refine List.filter_eq_self.2 fun m member => ?_
      rw [inRun m member, List.mem_takeWhile_imp member, Bool.and_self]
    have rest : (entries.dropWhile (·.isMember)).filter (fun m => kind m && m.isMember) = [] := by
      refine List.filter_eq_nil_iff.2 fun m member => ?_
      intro both
      obtain ⟨suits, tagged⟩ := Bool.and_eq_true_iff.1 both
      simp [others m member tagged] at suits
    calc entries.takeWhile (·.isMember)
        = (entries.takeWhile (·.isMember) ++ entries.dropWhile (·.isMember)).filter
            (fun m => kind m && m.isMember) := by rw [List.filter_append, run, rest, List.append_nil]
      _ = entries.filter (fun m => kind m && m.isMember) := by
        rw [List.takeWhile_append_dropWhile]

/-- The members collected for a structure or union are the member entries right behind it. They are
its own members exactly if all of these are its children and none of its members comes later. -/
theorem memberEntries_run (distinct : (History.of pushes).Distinct)
    (entries : (build pushes).entries = before ++ e :: after)
    (composite : TypeTable.isCompositeTag e.tag = true) :
    (build pushes).memberEntries e.offset = after.takeWhile (·.isMember) ∧
      ((build pushes).memberEntries e.offset =
          (build pushes).childrenTagged Tag.member e.offset ↔
        (∀ m ∈ after.takeWhile (·.isMember), m.parent = some e.offset) ∧
          ∀ m ∈ after.dropWhile (·.isMember), m.isMember = true → m.parent ≠ some e.offset) := by
  have run := memberEntries_eq distinct entries composite
  refine ⟨run, ?_⟩
  rw [run, childrenTagged_member distinct entries composite,
    takeWhile_eq_filter_iff (nodup_after distinct entries)]
  simp only [beq_iff_eq, ne_eq, beq_eq_false_iff_ne]

end

def nestedBox : List Push :=
  TypeTable.pushesOf [TypeTable.intEntry,
    ⟨32, Tag.structureType, 0, 1, none, [(Attr.name, .text "outer")]⟩,
    { TypeTable.referring 36 Tag.member "a" 16 with depth := 2 },
    ⟨40, Tag.structureType, 0, 2, none, [(Attr.name, .text "inner")]⟩,
    { TypeTable.referring 44 Tag.member "x" 16 with depth := 3 },
    { TypeTable.referring 48 Tag.member "b" 16 with depth := 2 }]

theorem memberEntries_run_nestedBox :
    (History.of nestedBox).Distinct ∧
      ∃ outer, outer.offset = 32 ∧ TypeTable.isCompositeTag outer.tag = true ∧
        (∃ before after, (build nestedBox).entries = before ++ outer :: after ∧
          (build nestedBox).memberEntries 32 = after.takeWhile (·.isMember)) ∧
        ((build nestedBox).memberEntries 32).map (·.offset) = [36] ∧
        (build nestedBox).memberEntries 32 ≠ (build nestedBox).childrenTagged Tag.member 32 := by
  have distinct : (History.of nestedBox).Distinct := by decide +kernel
  have entries : (build nestedBox).entries = (build nestedBox).entries.take 1 ++
      ⟨32, Tag.structureType, 11, 1, none, [(Attr.name, .text "outer")]⟩ ::
        (build nestedBox).entries.drop 2 := by decide +kernel
  have run := memberEntries_run distinct entries rfl
  refine ⟨distinct, _, rfl, rfl, ⟨_, _, entries, run.1⟩, by decide +kernel, fun same => ?_⟩
  exact (run.2.1 same).2 { TypeTable.referring 48 Tag.member "b" 16 with
    unit := 11, depth := 2, parent := some 32 } (by decide +kernel) rfl rfl

/-- The inner structure is given the outer one's second member, which the outer one lacks. -/
theorem nestedBox_misgives :
    (History.of nestedBox).Distinct ∧
      ∃ outer ∈ (build nestedBox).entries, TypeTable.isCompositeTag outer.tag = true ∧
        (build nestedBox).memberEntries outer.offset ≠
          (build nestedBox).childrenTagged Tag.member outer.offset ∧
        ((build nestedBox).memberEntries outer.offset).map (·.offset) = [36] ∧
        ((build nestedBox).childrenTagged Tag.member outer.offset).map (·.offset) = [36, 48] ∧
        ((build nestedBox).memberEntries 40).map (·.offset) = [44, 48] := by
  refine ⟨by decide +kernel, ⟨32, Tag.structureType, 11, 1, none, [(Attr.name, .text "outer")]⟩, ?_⟩
  decide +kernel

end EntryIndex

end SourceScope
