import Mathlib.Data.List.Sym
import SourceScope.Proofs.Function.Owner
import SourceScope.Proofs.Order.Sorted

set_option autoImplicit false

namespace SourceScope

namespace CodeRange

def Shares (r s : CodeRange) : Prop :=
  ∃ address, r.contains address = true ∧ s.contains address = true

theorem shares_iff (r s : CodeRange) :
    r.Shares s ↔ r.first ≤ r.last ∧ s.first ≤ s.last ∧ r.overlaps s = true := by
  simp only [Shares, contains, overlaps, Bool.and_eq_true, decide_eq_true_eq,
    UInt32.le_iff_toNat_le]
  constructor
  · rintro ⟨address, inFirst, inSecond⟩
    omega
  · -- what is shared begins where the later of the two does
    rintro ⟨upright, upright', reaches⟩
    rcases Nat.le_total r.first.toNat s.first.toNat with before | after
    · exact ⟨s.first, by omega⟩
    · exact ⟨r.first, by omega⟩

instance (r s : CodeRange) : Decidable (r.Shares s) :=
  decidable_of_iff _ (shares_iff r s).symm

end CodeRange

namespace FunctionSet

def outOfLine (set : FunctionSet) : List (CodeRange × FunctionId) :=
  set.toList.flatMap fun (id, f) => (f.ranges.filter (!·.inlined)).map fun r => (r, id)

def Before (a b : CodeRange × Nat) : Prop :=
  a.1.first < b.1.first ∨ a.1.first = b.1.first ∧
    (a.1.last < b.1.last ∨ a.1.last = b.1.last ∧ a.2 ≤ b.2)

instance (a b : CodeRange × Nat) : Decidable (Before a b) :=
  inferInstanceAs (Decidable (_ ∨ _ ∧ (_ ∨ _ ∧ _)))

def reported? (a b : CodeRange × Nat) : Option (FunctionId × FunctionId × CodeRange) :=
  if a.2 ≠ b.2 ∧ a.1.Shares b.1 then some (a.2, b.2, b.1) else none

theorem before_iff {a b : CodeRange × Nat} : Before a b ↔
    a.1.first.toNat < b.1.first.toNat ∨ a.1.first.toNat = b.1.first.toNat ∧
      (a.1.last.toNat < b.1.last.toNat ∨ a.1.last.toNat = b.1.last.toNat ∧ a.2 ≤ b.2) := by
  simp only [Before, UInt32.lt_iff_toNat_lt, UInt32.toNat_inj]

theorem startsBefore_iff {a b : CodeRange × Nat} : startsBefore a b = true ↔
    a.1.first.toNat < b.1.first.toNat ∨
      a.1.first.toNat = b.1.first.toNat ∧ a.1.last.toNat ≤ b.1.last.toNat := by
  simp [startsBefore, UInt32.lt_iff_toNat_lt, UInt32.le_iff_toNat_le, ← UInt32.toNat_inj]

theorem first_le_of_before {a b : CodeRange × Nat} (before : Before a b) :
    a.1.first ≤ b.1.first := by
  rw [before_iff] at before
  rw [UInt32.le_iff_toNat_le]
  omega

theorem reported?_of_past {a b : CodeRange × Nat} (past : a.1.last < b.1.first) :
    reported? a b = none := by
  refine if_neg fun both => ?_
  have shares := ((CodeRange.shares_iff a.1 b.1).1 both.2).2.2
  simp only [CodeRange.overlaps, Bool.and_eq_true, decide_eq_true_eq] at shares
  exact UInt32.not_le.2 past shares.2

theorem reported?_self (a : CodeRange × Nat) : reported? a a = none := by
  simp [reported?]

theorem inOrder_comm (a b : CodeRange × Nat) :
    (if Before a b then reported? a b else reported? b a) =
      if Before b a then reported? b a else reported? a b := by
  by_cases same : a.2 = b.2
  · simp [reported?, same]
  · have other : Before b a ↔ ¬Before a b := by
      rw [before_iff, before_iff]
      omega
    by_cases before : Before a b <;> simp [other, before]

def shared? : Sym2 (CodeRange × Nat) → Option (FunctionId × FunctionId × CodeRange) :=
  Sym2.lift ⟨fun a b => if Before a b then reported? a b else reported? b a, inOrder_comm⟩

theorem shared?_of_before {a b : CodeRange × Nat} (before : Before a b) :
    shared? s(a, b) = reported? a b :=
  if_pos before

theorem shared?_self (a : CodeRange × Nat) : shared? s(a, a) = none := by
  rw [shared?_of_before (before_iff.2 (by omega)), reported?_self]

section

variable {items : List (CodeRange × Nat)}

theorem sorted_before (numbered : items.Pairwise fun a b => a.2 ≤ b.2) :
    (items.mergeSort startsBefore).Pairwise Before := by
  have trans (a b c : CodeRange × Nat) (first : startsBefore a b)
      (second : startsBefore b c) : startsBefore a c := by
    rw [startsBefore_iff] at *
    omega
  have total (a b : CodeRange × Nat) : startsBefore a b || startsBefore b a := by
    rw [Bool.or_eq_true, startsBefore_iff, startsBefore_iff]
    omega
  refine (mergeSort_stable trans total (fun a => Nat.le_refl a.2) numbered).imp ?_
  rintro a b ⟨ascending, stable⟩
  rw [startsBefore_iff] at ascending
  rw [startsBefore_iff] at stable
  rw [before_iff]
  omega

theorem conflicts_eq {a : CodeRange × Nat} (upright : a.1.first ≤ a.1.last)
    (uprights : ∀ b ∈ items, b.1.first ≤ b.1.last)
    (ascending : items.Pairwise Before) :
    conflicts a.1 a.2 items = items.filterMap (reported? a) := by
  induction items with
  | nil => rfl
  | cons b rest ih =>
    obtain ⟨first, later⟩ := List.pairwise_cons.1 ascending
    obtain ⟨uprightFirst, uprightRest⟩ := List.forall_mem_cons.1 uprights
    have here : (if b.2 ≠ a.2 ∧ a.1.overlaps b.1 = true then some (a.2, b.2, b.1) else none) =
        reported? a b := by
      simp only [reported?, CodeRange.shares_iff, upright, uprightFirst, true_and, ne_comm]
    by_cases reaches : b.1.first ≤ a.1.last
    · rw [List.filterMap_cons, ← ih uprightRest later, ← here, conflicts, conflicts,
        List.takeWhile_cons_of_pos (by simpa using reaches), List.filterMap_cons]
    · have past : ∀ c ∈ b :: rest, a.1.last < c.1.first := by
        have here := UInt32.not_le.1 reaches
        intro c member
        rcases List.mem_cons.1 member with rfl | among
        · exact here
        · exact Std.lt_of_lt_of_le here (first_le_of_before (first c among))
      rw [List.filterMap_eq_nil_iff.2 fun c member => reported?_of_past (past c member)]
      simp [conflicts, reaches]

theorem allConflicts_eq (uprights : ∀ a ∈ items, a.1.first ≤ a.1.last)
    (ascending : items.Pairwise Before) : allConflicts items = items.sym2.filterMap shared? := by
  induction items with
  | nil => rfl
  | cons a rest ih =>
    obtain ⟨first, later⟩ := List.pairwise_cons.1 ascending
    obtain ⟨uprightFirst, uprightRest⟩ := List.forall_mem_cons.1 uprights
    have behind : rest.filterMap (fun b => shared? s(a, b)) = rest.filterMap (reported? a) :=
      List.filterMap_congr fun b member => shared?_of_before (first b member)
    have alone : (shared? ∘ fun b => s(a, b)) a = none := shared?_self a
    rw [allConflicts, ih uprightRest later, conflicts_eq uprightFirst uprightRest later, ← behind,
      List.sym2, List.filterMap_append, List.filterMap_map, List.filterMap_cons_none alone]
    rfl

end

theorem outOfLine_numbered (set : FunctionSet) :
    set.outOfLine.Pairwise fun a b => a.2 ≤ b.2 := by
  rw [outOfLine, List.pairwise_flatMap]
  constructor
  · rintro ⟨id, f⟩ -
    exact List.pairwise_map.2 (List.pairwise_of_forall fun r s => Nat.le_refl id)
  · refine set.toList_numbered.imp ?_
    rintro ⟨m, f⟩ ⟨n, g⟩ before a inFirst b inSecond
    obtain ⟨r, -, rfl⟩ := List.mem_map.1 inFirst
    obtain ⟨s, -, rfl⟩ := List.mem_map.1 inSecond
    exact Nat.le_of_lt before

theorem mem_ranges_of_outOfLine {set : FunctionSet} {a : CodeRange × FunctionId}
    (member : a ∈ set.outOfLine) : a.1 ∈ set.ranges := by
  obtain ⟨⟨id, f⟩, listed, here⟩ := List.mem_flatMap.1 member
  obtain ⟨r, own, rfl⟩ := List.mem_map.1 here
  have among := List.mem_of_getElem? (mem_toList.1 listed)
  exact List.mem_flatMap.2 ⟨f, among, List.mem_of_mem_filter own⟩

theorem overlaps_eq (set : FunctionSet) :
    set.overlaps = allConflicts (set.outOfLine.mergeSort startsBefore) :=
  rfl

/-- Of every two ranges of different functions that share an address there is one report: the
functions in ascending order of the two ranges, and the later range. Nothing else is reported. -/
theorem overlaps_perm (set : FunctionSet) (uprights : ∀ r ∈ set.ranges, r.first ≤ r.last) :
    set.overlaps.Perm (set.outOfLine.sym2.filterMap shared?) := by
  have sorted := sorted_before set.outOfLine_numbered
  have same := List.mergeSort_perm set.outOfLine startsBefore
  have upright : ∀ a ∈ set.outOfLine.mergeSort startsBefore, a.1.first ≤ a.1.last := fun a member =>
    uprights a.1 (mem_ranges_of_outOfLine (List.mem_mergeSort.1 member))
  rw [overlaps_eq, allConflicts_eq upright sorted]
  exact same.sym2.filterMap shared?

def crowded : FunctionSet where
  functions := [
    ⟨"a", [⟨0x100, 0x1ff, false⟩, ⟨0x120, 0x12f, false⟩, ⟨0x300, 0x3ff, true⟩], none, [], none,
      none, false⟩,
    ⟨"b", [⟨0x80, 0x100, false⟩, ⟨0x120, 0x12f, false⟩], none, [], none, none, false⟩,
    ⟨"c", [⟨0x1ff, 0x300, false⟩, ⟨0x1ff, 0x300, false⟩], none, [], none, none, false⟩]
  entries := []

theorem overlaps_crowded :
    (∀ r ∈ crowded.ranges, r.first ≤ r.last) ∧
      crowded.overlaps.Perm [(1, 0, ⟨0x100, 0x1ff, false⟩), (0, 1, ⟨0x120, 0x12f, false⟩),
        (0, 2, ⟨0x1ff, 0x300, false⟩), (0, 2, ⟨0x1ff, 0x300, false⟩),
        (0, 1, ⟨0x120, 0x12f, false⟩)] := by
  have uprights : ∀ r ∈ crowded.ranges, r.first ≤ r.last := by decide
  exact ⟨uprights, overlaps_perm crowded uprights⟩

end FunctionSet

end SourceScope
