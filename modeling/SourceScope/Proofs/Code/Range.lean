import SourceScope.Code.Range

set_option autoImplicit false

namespace SourceScope

namespace CodeRange

theorem ofHalfOpen?_eq_none_iff {low high : UInt32} :
    ofHalfOpen? low high = none ↔ high ≤ low := by
  simp [ofHalfOpen?]

theorem of_ofHalfOpen? {low high : UInt32} {r : CodeRange} (made : ofHalfOpen? low high = some r) :
    low < high ∧ r.first = low ∧ ∀ address, address ≤ r.last ↔ address < high := by
  unfold ofHalfOpen? at made
  split at made
  · cases made
  next nonempty =>
    obtain rfl := Option.some.inj made
    have above := UInt32.not_le.1 nonempty
    refine ⟨above, rfl, fun address => ?_⟩
    have one : UInt32.toNat 1 = 1 := rfl
    rw [UInt32.lt_iff_toNat_lt] at above ⊢
    have atLeast : (1 : UInt32) ≤ high := by
      rw [UInt32.le_iff_toNat_le, one]
      omega
    rw [UInt32.le_iff_toNat_le, UInt32.toNat_sub_of_le _ _ atLeast, one]
    omega

theorem ofHalfOpen?_ofNat {low high : Nat} (lowFits : low ≤ 0xffffffff)
    (highFits : high ≤ 0xffffffff) : ofHalfOpen? (.ofNat low) (.ofNat high) =
      if low < high then some ⟨.ofNat low, .ofNat (high - 1), false⟩ else none := by
  have lowSame : (UInt32.ofNat low).toNat = low :=
    UInt32.toNat_ofNat_of_lt' (Nat.lt_succ_of_le lowFits)
  have highSame : (UInt32.ofNat high).toNat = high :=
    UInt32.toNat_ofNat_of_lt' (Nat.lt_succ_of_le highFits)
  have order : UInt32.ofNat high ≤ .ofNat low ↔ high ≤ low := by
    rw [UInt32.le_iff_toNat_le, lowSame, highSame]
  unfold ofHalfOpen?
  by_cases nonempty : low < high
  · have last := UInt32.ofNat_sub (Nat.lt_of_le_of_lt (Nat.zero_le low) nonempty)
    rw [if_neg (mt order.1 (Nat.not_le.2 nonempty)), if_pos nonempty, last]
    rfl
  · rw [if_pos (order.2 (Nat.le_of_not_lt nonempty)), if_neg nonempty]

theorem ofHalfOpen?_plain (low high : UInt32) :
    ∀ r ∈ (ofHalfOpen? low high).toList, r.inlined = false := by
  unfold ofHalfOpen?
  split <;> simp

end CodeRange

def Covered (ranges : List CodeRange) (address : UInt32) : Prop :=
  ∃ r ∈ ranges, r.contains address = true

theorem Covered.cons {ranges : List CodeRange} {address : UInt32} (range : CodeRange)
    (covered : Covered ranges address) : Covered (range :: ranges) address := by
  obtain ⟨r, member, inside⟩ := covered
  exact ⟨r, List.mem_cons_of_mem _ member, inside⟩

theorem covered_filterMap_iff {A : Type} {f : A → Option CodeRange} {items : List A}
    {address : UInt32} :
    Covered (items.filterMap f) address ↔ ∃ a ∈ items, Covered (f a).toList address := by
  unfold Covered
  constructor
  · rintro ⟨r, member, inside⟩
    obtain ⟨a, listed, made⟩ := List.mem_filterMap.1 member
    exact ⟨a, listed, r, Option.mem_toList.2 made, inside⟩
  · rintro ⟨a, listed, r, made, inside⟩
    exact ⟨r, List.mem_filterMap.2 ⟨a, listed, Option.mem_toList.1 made⟩, inside⟩

theorem covered_ofHalfOpen?_iff {low high address : UInt32} :
    Covered (CodeRange.ofHalfOpen? low high).toList address ↔ low ≤ address ∧ address < high := by
  cases made : CodeRange.ofHalfOpen? low high with
  | none =>
    have empty := CodeRange.ofHalfOpen?_eq_none_iff.1 made
    have outside (above : low ≤ address) : ¬address < high :=
      UInt32.not_lt.2 (UInt32.le_trans empty above)
    simpa [Covered] using outside
  | some r =>
    obtain ⟨-, first, upTo⟩ := CodeRange.of_ofHalfOpen? made
    simp [Covered, CodeRange.contains, first, upTo]

end SourceScope
