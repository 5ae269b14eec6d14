import SourceScope.Proofs.Code.Coverage
import SourceScope.Proofs.Code.Range
import SourceScope.Proofs.Function.Owner

set_option autoImplicit false

namespace SourceScope

theorem innermost?_isSome {A : Type} (rangeOf : A → CodeRange) {items : List A} {a : A}
    (member : a ∈ items) : ∃ b, innermost? rangeOf items = some b := by
  cases items with
  | nil => cases member
  | cons first rest =>
    simp only [innermost?]
    split
    · exact ⟨first, rfl⟩
    · split <;> exact ⟨_, rfl⟩

namespace SourceFunction

theorem mem_addRange (ranges : List CodeRange) (range r : CodeRange) :
    r ∈ addRange ranges range ↔ r ∈ ranges ∨ r = range := by
  unfold addRange
  split
  next present =>
    constructor
    · exact .inl
    · rintro (member | rfl)
      · exact member
      · simpa using present
  next => simp

theorem mem_foldl_addRange (others ranges : List CodeRange) (r : CodeRange) :
    r ∈ others.foldl addRange ranges ↔ r ∈ ranges ∨ r ∈ others := by
  induction others generalizing ranges with
  | nil => simp
  | cons first rest ih => simp [ih, mem_addRange, or_assoc]

theorem withInstances_ranges (f : SourceFunction) : f.withInstances.ranges = f.ranges := by
  unfold withInstances
  split <;> rfl

theorem rangeAt?_isSome {f : SourceFunction} {address : UInt32}
    (inside : f.contains address = true) : ∃ range, f.rangeAt? address = some range := by
  obtain ⟨r, member, covers⟩ := List.any_eq_true.1 inside
  exact innermost?_isSome id (List.mem_filter.2 ⟨member, covers⟩)

end SourceFunction

namespace FunctionSet

theorem mem_ranges_insert (set : FunctionSet) (f : SourceFunction) {r : CodeRange}
    (member : r ∈ set.ranges ∨ r ∈ f.ranges) : r ∈ (set.insert f).2.ranges := by
  rw [← f.withInstances_ranges] at member
  unfold insert
  simp only [find?]
  split
  next id found =>
    obtain ⟨bound, -⟩ := List.findIdx?_eq_some_iff_getElem.1 found
    simp only [ranges, List.mem_flatMap] at member ⊢
    rcases member with ⟨g, among, inRanges⟩ | inRanges
    · obtain ⟨n, inside, rfl⟩ := List.mem_iff_getElem.1 among
      refine ⟨_, List.getElem_mem (by simpa using inside), ?_⟩
      rw [List.getElem_modify]
      split
      · exact (SourceFunction.mem_foldl_addRange _ _ r).2 (.inl inRanges)
      · exact inRanges
    · refine ⟨_, List.getElem_mem (by simpa using bound), ?_⟩
      rw [List.getElem_modify, if_pos rfl]
      exact (SourceFunction.mem_foldl_addRange _ _ r).2 (.inr inRanges)
  next => simpa [ranges] using member

theorem smallestEnclosing?_isSome {set : FunctionSet} {address : UInt32} {r : CodeRange}
    (member : r ∈ set.ranges) (inside : r.contains address = true) :
    ∃ id, set.smallestEnclosing? address = some id := by
  obtain ⟨f, among, inRanges⟩ := List.mem_flatMap.1 member
  obtain ⟨id, bound, rfl⟩ := List.mem_iff_getElem.1 among
  obtain ⟨range, here⟩ := SourceFunction.rangeAt?_isSome (List.any_eq_true.2 ⟨r, inRanges, inside⟩)
  simp only [smallestEnclosing?]
  generalize same : List.filterMap _ set.toList = around
  have candidate : (range, id) ∈ around := by
    rw [← same]
    refine List.mem_filterMap.2 ⟨(id, set.functions[id]), ?_, by simp [here]⟩
    exact mem_toList.2 (List.getElem?_eq_getElem bound)
  obtain ⟨found, least⟩ := innermost?_isSome Prod.fst candidate
  exact ⟨found.2, by rw [least]; rfl⟩

theorem le_saturatingAdd (a b : UInt32) : a ≤ LineExtent.saturatingAdd a b := by
  unfold LineExtent.saturatingAdd
  have bound := a.toNat_lt
  split
  next fits =>
    rw [UInt32.le_iff_toNat_le, UInt32.toNat_add, Nat.mod_eq_of_lt fits]
    omega
  next =>
    rw [UInt32.le_iff_toNat_le]
    change a.toNat ≤ 4294967295
    omega

theorem lt_saturatingAdd {a b : UInt32} (room : a < 0xffffffff) (positive : 0 < b) :
    a < LineExtent.saturatingAdd a b := by
  unfold LineExtent.saturatingAdd
  split
  next fits =>
    rw [UInt32.lt_iff_toNat_lt] at positive ⊢
    rw [UInt32.toNat_add, Nat.mod_eq_of_lt fits]
    exact Nat.lt_add_of_pos_right positive
  next => exact room

theorem uncovered_keeps (known : Coverage) (current : CodeRange) (opcodes : List Opcode)
    (later : ∀ o ∈ opcodes, current.first < o.address) {address : UInt32}
    (inside : current.contains address = true) :
    Covered (uncovered known (some current) opcodes) address := by
  induction opcodes generalizing current with
  | nil => exact ⟨current, by simp [uncovered], inside⟩
  | cons o rest ih =>
    have restLater : ∀ o ∈ rest, current.first < o.address := fun o member =>
      later o (List.mem_cons_of_mem _ member)
    simp only [uncovered]
    split
    · exact ih current restLater inside
    split
    next touches =>
      refine ih _ restLater ?_
      -- the range does not wrap, for the opcode that follows begins after it
      have after := later o (by simp)
      have grows := le_saturatingAdd o.address (UInt32.ofNat (o.size.toNat - 1))
      have next := congrArg UInt32.toNat touches
      have one : UInt32.toNat 1 = 1 := rfl
      have bound := current.last.toNat_lt
      simp only [CodeRange.contains, Bool.and_eq_true, decide_eq_true_eq] at inside ⊢
      refine ⟨inside.1, ?_⟩
      have upper := inside.2
      rw [UInt32.toNat_add, one] at next
      rw [UInt32.lt_iff_toNat_lt] at after
      rw [UInt32.le_iff_toNat_le] at grows upper ⊢
      omega
    next => exact ⟨current, by simp, inside⟩

theorem contains_first (o : Opcode) :
    (CodeRange.mk o.address (LineExtent.saturatingAdd o.address (UInt32.ofNat (o.size.toNat - 1)))
      false).contains o.address = true := by
  simp [CodeRange.contains, le_saturatingAdd]

theorem uncovered_takes (known : Coverage) (current : Option CodeRange) (opcodes : List Opcode)
    (ascending : opcodes.Pairwise fun a b => a.address < b.address)
    (later : ∀ range ∈ current, ∀ o ∈ opcodes, range.first < o.address) {o : Opcode}
    (member : o ∈ opcodes) (unknown : known.contains o.address = false) :
    Covered (uncovered known current opcodes) o.address := by
  induction opcodes generalizing current with
  | nil => cases member
  | cons first rest ih =>
    have restLater : ∀ range ∈ current, ∀ o ∈ rest, range.first < o.address :=
      fun range growing o among => later range growing o (List.mem_cons_of_mem _ among)
    have afterFirst := (List.pairwise_cons.1 ascending).1
    rcases List.mem_cons.1 member with rfl | among
    · -- the opcode starts a range or extends the current one
      simp only [uncovered, unknown, Bool.false_eq_true, if_false]
      cases current with
      | none => exact uncovered_keeps known _ rest afterFirst (contains_first o)
      | some range =>
        simp only
        split
        next touches =>
          apply uncovered_keeps
          · exact restLater range rfl
          · have before := UInt32.le_of_lt (later range rfl o (by simp))
            simp [CodeRange.contains, le_saturatingAdd, before]
        next =>
          exact Covered.cons range (uncovered_keeps known _ rest afterFirst (contains_first o))
    · simp only [uncovered]
      split
      · exact ih current ascending.tail restLater among
      cases current with
      | none =>
        refine ih _ ascending.tail ?_ among
        rintro _ ⟨⟩
        exact afterFirst
      | some range =>
        simp only
        split
        · refine ih _ ascending.tail ?_ among
          rintro _ ⟨⟩
          exact restLater range rfl
        · refine Covered.cons range (ih _ ascending.tail ?_ among)
          rintro _ ⟨⟩
          exact afterFirst

theorem withDriver_covered (set : FunctionSet) (name : String) (opcodes : List Opcode)
    (ascending : opcodes.Pairwise fun a b => a.address < b.address) {o : Opcode}
    (member : o ∈ opcodes) : Covered (set.withDriver name opcodes).2.ranges o.address := by
  -- what the coverage holds is in a function already; the driver takes the rest
  by_cases known : (Coverage.ofRanges set.ranges).contains o.address = true
  · obtain ⟨r, inSet, inside⟩ := Coverage.contains_ofRanges known
    exact ⟨r, mem_ranges_insert set _ (.inl inSet), inside⟩
  · obtain ⟨r, inDriver, inside⟩ := uncovered_takes (Coverage.ofRanges set.ranges) none opcodes
      ascending (by simp) member (Bool.eq_false_iff.2 known)
    exact ⟨r, mem_ranges_insert set _ (.inr inDriver), inside⟩

theorem withDriver_encloses (set : FunctionSet) (name : String) (opcodes : List Opcode)
    (ascending : opcodes.Pairwise fun a b => a.address < b.address) {o : Opcode}
    (member : o ∈ opcodes) :
    ∃ id, (set.withDriver name opcodes).2.smallestEnclosing? o.address = some id := by
  obtain ⟨r, inSet, inside⟩ := withDriver_covered set name opcodes ascending member
  exact smallestEnclosing?_isSome inSet inside

end FunctionSet

end SourceScope
