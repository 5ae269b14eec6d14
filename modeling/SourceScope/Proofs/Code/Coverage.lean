import SourceScope.Code.Coverage
import SourceScope.Proofs.Code.Range

set_option autoImplicit false

namespace SourceScope

def Span.contains (s : Span) (address : UInt32) : Prop := s.first ≤ address ∧ address ≤ s.last

namespace Coverage

theorem le_max_iff (a b c : UInt32) : a ≤ max b c ↔ a ≤ b ∨ a ≤ c := by
  change a ≤ (if b ≤ c then c else b) ↔ _
  simp only [UInt32.le_iff_toNat_le]
  split <;> omega

theorem le_following_iff {a b : UInt32} : a ≤ following b ↔ a.toNat ≤ b.toNat + 1 := by
  have one : UInt32.toNat 1 = 1 := rfl
  have most := a.toNat_lt
  unfold following
  split
  next last =>
    have maximum : b.toNat = 4294967295 := congrArg UInt32.toNat last
    rw [UInt32.le_iff_toNat_le]
    omega
  next notLast =>
    have bound := b.toNat_lt
    have different : b.toNat ≠ 4294967295 := fun same => notLast (UInt32.toNat_inj.1 same)
    rw [UInt32.le_iff_toNat_le, UInt32.toNat_add, one]
    omega

theorem joined_contains_iff {current next : Span} (before : current.first ≤ next.first)
    (touches : next.first ≤ following current.last) (address : UInt32) :
    (Span.mk current.first (max current.last next.last)).contains address ↔
      current.contains address ∨ next.contains address := by
  rw [le_following_iff] at touches
  unfold Span.contains
  rw [le_max_iff]
  simp only [UInt32.le_iff_toNat_le] at before ⊢
  omega

section

variable {current : Span} {rest : List Span}

theorem ascending_joined {next : Span}
    (ascending : (current :: next :: rest).Pairwise fun a b => a.first ≤ b.first) (last : UInt32) :
    (⟨current.first, last⟩ :: rest : List Span).Pairwise fun a b => a.first ≤ b.first := by
  obtain ⟨first, later⟩ := List.pairwise_cons.1 ascending
  exact List.pairwise_cons.2 ⟨fun s among => first s (List.mem_cons_of_mem _ among), later.tail⟩

theorem merge_contains_iff
    (ascending : (current :: rest).Pairwise fun a b => a.first ≤ b.first) (address : UInt32) :
    (∃ s ∈ merge current rest, s.contains address) ↔
      ∃ s ∈ current :: rest, s.contains address := by
  fun_induction merge current rest with
  | case1 current => rfl
  | case2 current next rest touches ih =>
    have before := (List.pairwise_cons.1 ascending).1 next List.mem_cons_self
    rw [ih (ascending_joined ascending _)]
    simp only [List.mem_cons, exists_eq_or_imp, joined_contains_iff before touches, or_assoc]
  | case3 current next rest apart ih =>
    have later := ih ascending.tail
    simp only [List.mem_cons, exists_eq_or_imp] at later ⊢
    rw [later]

theorem first_le_of_mem_merge
    (ascending : (current :: rest).Pairwise fun a b => a.first ≤ b.first) {s : Span}
    (member : s ∈ merge current rest) : current.first ≤ s.first := by
  fun_induction merge current rest with
  | case1 current => exact List.mem_singleton.1 member ▸ UInt32.le_refl _
  | case2 current next rest touches ih => exact ih (ascending_joined ascending _) member
  | case3 current next rest apart ih =>
    rcases List.mem_cons.1 member with rfl | later
    · exact UInt32.le_refl _
    · have before := (List.pairwise_cons.1 ascending).1 next List.mem_cons_self
      exact UInt32.le_trans before (ih ascending.tail later)

end

def Separated (spans : List Span) : Prop :=
  spans.Pairwise fun a b => a.first ≤ b.first ∧ a.last < b.first

theorem merge_separated {current : Span} {rest : List Span}
    (ascending : (current :: rest).Pairwise fun a b => a.first ≤ b.first) :
    Separated (merge current rest) := by
  fun_induction merge current rest with
  | case1 current => exact List.pairwise_singleton _ _
  | case2 current next rest touches ih => exact ih (ascending_joined ascending _)
  | case3 current next rest apart ih =>
    have before := (List.pairwise_cons.1 ascending).1 next List.mem_cons_self
    refine List.pairwise_cons.2 ⟨fun s later => ?_, ih ascending.tail⟩
    have after := first_le_of_mem_merge ascending.tail later
    rw [le_following_iff] at apart
    simp only [UInt32.le_iff_toNat_le, UInt32.lt_iff_toNat_lt] at before after ⊢
    omega

theorem contains_span {c : Coverage} {address : UInt32} (inside : c.contains address = true) :
    ∃ s ∈ c.spans, s.contains address := by
  unfold contains at inside
  split at inside
  next s last =>
    have member := List.mem_of_getLast? last
    have before := List.all_eq_true.1 List.all_takeWhile s member
    have among := (List.takeWhile_sublist _).subset member
    exact ⟨s, among, by simpa using before, by simpa using inside⟩
  next => cases inside

theorem contains_of_separated {c : Coverage} (separated : Separated c.spans) {address : UInt32}
    {s : Span} (member : s ∈ c.spans) (inside : s.contains address) :
    c.contains address = true := by
  obtain ⟨before, after, split⟩ := List.append_of_mem member
  obtain ⟨-, later, earlier⟩ := List.pairwise_append.1 (split ▸ separated)
  -- the spans behind `s` start past its end, so `s` is the last that is looked at
  have stops : after.takeWhile (·.first ≤ address) = [] := by
    cases after with
    | nil => rfl
    | cons next rest =>
      have past := ((List.pairwise_cons.1 later).1 next List.mem_cons_self).2
      have beyond : ¬next.first ≤ address :=
        UInt32.not_le.2 (Std.lt_of_le_of_lt inside.2 past)
      simp [beyond]
  have looked : c.spans.takeWhile (·.first ≤ address) = before ++ [s] := by
    rw [split, List.takeWhile_append_of_pos, List.takeWhile_cons_of_pos (by simpa using inside.1),
      stops]
    intro a among
    have starts := (earlier a among s List.mem_cons_self).1
    simpa using UInt32.le_trans starts inside.1
  unfold contains
  rw [looked, List.getLast?_concat]
  simpa using inside.2

theorem precedes_iff {a b : Span} : precedes a b = true ↔
    a.first.toNat < b.first.toNat ∨
      a.first.toNat = b.first.toNat ∧ a.last.toNat ≤ b.last.toNat := by
  simp [precedes, UInt32.lt_iff_toNat_lt, UInt32.le_iff_toNat_le, ← UInt32.toNat_inj]

theorem precedes_trans (a b c : Span) (first : precedes a b) (second : precedes b c) :
    precedes a c := by
  rw [precedes_iff] at *
  omega

theorem precedes_total (a b : Span) : precedes a b || precedes b a := by
  rw [Bool.or_eq_true, precedes_iff, precedes_iff]
  omega

theorem first_le_of_precedes {a b : Span} (before : precedes a b) : a.first ≤ b.first := by
  rw [precedes_iff] at before
  rw [UInt32.le_iff_toNat_le]
  omega

theorem ofRanges_spans (ranges : List CodeRange) :
    Separated (ofRanges ranges).spans ∧
      ∀ address, (∃ s ∈ (ofRanges ranges).spans, s.contains address) ↔ Covered ranges address := by
  have ascending := (List.pairwise_mergeSort precedes_trans precedes_total
    (ranges.map fun r => Span.mk r.first r.last)).imp first_le_of_precedes
  have spans (address : UInt32) :
      (∃ s ∈ (ranges.map fun r => Span.mk r.first r.last).mergeSort precedes, s.contains address) ↔
        Covered ranges address := by
    simp only [List.mem_mergeSort]
    constructor
    · rintro ⟨_, member, inside⟩
      obtain ⟨r, listed, rfl⟩ := List.mem_map.1 member
      exact ⟨r, listed, by simpa [CodeRange.contains, Span.contains] using inside⟩
    · rintro ⟨r, listed, inside⟩
      exact ⟨_, List.mem_map_of_mem listed, by
        simpa [CodeRange.contains, Span.contains] using inside⟩
  unfold ofRanges
  split
  next empty =>
    rw [empty] at spans
    exact ⟨List.Pairwise.nil, spans⟩
  next first rest sorted =>
    rw [sorted] at ascending spans
    exact ⟨merge_separated ascending, fun address =>
      (merge_contains_iff ascending address).trans (spans address)⟩

theorem contains_ofRanges {ranges : List CodeRange} {address : UInt32}
    (inside : (ofRanges ranges).contains address = true) :
    ∃ r ∈ ranges, r.contains address = true :=
  ((ofRanges_spans ranges).2 address).1 (contains_span inside)

/-- Coverage contains what some range does; ranges that are inverted have nothing to add. -/
theorem contains_ofRanges_iff (ranges : List CodeRange) (address : UInt32) :
    (ofRanges ranges).contains address = true ↔ Covered ranges address := by
  refine ⟨contains_ofRanges, fun covered => ?_⟩
  obtain ⟨separated, spans⟩ := ofRanges_spans ranges
  obtain ⟨s, member, inside⟩ := (spans address).2 covered
  exact contains_of_separated separated member inside

example : (ofRanges [⟨0x40, 0x4f, false⟩, ⟨0x20, 0x2f, true⟩, ⟨0x10, 0x1f, false⟩,
    ⟨0x44, 0x45, false⟩, ⟨0x60, 0x50, false⟩, ⟨0xffffffff, 0xffffffff, false⟩]).spans =
      [⟨0x10, 0x2f⟩, ⟨0x40, 0x4f⟩, ⟨0x60, 0x50⟩, ⟨0xffffffff, 0xffffffff⟩] := by
  cbv

end Coverage

end SourceScope
