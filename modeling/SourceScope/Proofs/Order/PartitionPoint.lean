import SourceScope.Order.PartitionPoint

set_option autoImplicit false

namespace SourceScope

variable {A : Type}

def Partitioned (below : A → Bool) (items : Array A) : Prop :=
  ∀ (m n : Nat) (a b : A), m ≤ n → items[m]? = some a → items[n]? = some b →
    below b = true → below a = true

theorem Partitioned.of_pairwise {below : A → Bool} {items : Array A} {before : A → A → Prop}
    (sorted : items.toList.Pairwise before)
    (closed : ∀ a b : A, before a b → below b = true → below a = true) :
    Partitioned below items := by
  intro m n a b le atM atN meets
  rcases Nat.eq_or_lt_of_le le with rfl | less
  · rwa [Option.some.inj (atM.symm.trans atN)]
  · rw [← Array.getElem?_toList] at atM atN
    obtain ⟨mBound, rfl⟩ := List.getElem?_eq_some_iff.1 atM
    obtain ⟨nBound, rfl⟩ := List.getElem?_eq_some_iff.1 atN
    exact closed _ _ (List.pairwise_iff_getElem.1 sorted m n mBound nBound less) meets

def SplitAround (below : A → Bool) (items : Array A) (index : Nat) : Prop :=
  index < items.size ∧
    (∀ (n : Nat) (a : A), n < index → items[n]? = some a → below a = true) ∧
    ∀ (n : Nat) (a : A), index < n → items[n]? = some a → below a = false

theorem narrow_splits (below : A → Bool) (items : Array A) (partitioned : Partitioned below items)
    (base size : Nat) (positive : 0 < size) (inside : base + size ≤ items.size)
    (front : ∀ (n : Nat) (a : A), n < base → items[n]? = some a → below a = true)
    (back : ∀ (n : Nat) (a : A), base + size ≤ n → items[n]? = some a → below a = false) :
    SplitAround below items (PartitionPoint.narrow below items base size) := by
  fun_induction PartitionPoint.narrow below items base size with
  | case1 base size small =>
    refine ⟨by omega, front, fun n a after found => back n a ?_ found⟩
    omega
  | case2 base size large half middle item found ih =>
    simp only [dite_eq_ite] at ih
    by_cases meets : below item = true
    · rw [if_pos meets] at ih ⊢
      refine ih (by omega) (by omega) ?_ ?_
      · intro n a before atN
        exact partitioned n middle a item (Nat.le_of_lt before) atN found meets
      · intro n a after atN
        exact back n a (by omega) atN
    · rw [if_neg meets] at ih ⊢
      refine ih (by omega) (by omega) front ?_
      intro n a after atN
      refine Bool.eq_false_iff.2 fun later => meets ?_
      exact partitioned middle n item a (by omega) found atN later
  | case3 base size large half middle missing =>
    rw [Array.getElem?_eq_none_iff] at missing
    omega

theorem lt_partitionPoint_iff {below : A → Bool} {items : Array A}
    (partitioned : Partitioned below items) {n : Nat} {a : A} (found : items[n]? = some a) :
    n < partitionPoint below items ↔ below a = true := by
  have bound : n < items.size := (Array.getElem?_eq_some_iff.1 found).1
  obtain ⟨inside, before, after⟩ := narrow_splits below items partitioned 0 items.size (by omega)
    (by omega) (by omega) (fun m b later atM => by
      have inside := (Array.getElem?_eq_some_iff.1 atM).1
      omega)
  unfold partitionPoint
  generalize PartitionPoint.narrow below items 0 items.size = base at inside before after
  have atBase := Array.getElem?_eq_getElem inside
  rcases Nat.lt_trichotomy n base with less | rfl | greater
  · have meets := before n a less found
    simp only [meets, atBase, iff_true]
    split <;> omega
  · by_cases meets : below a = true <;> simp [found, meets]
  · have fails := after n a greater found
    simp only [fails, atBase, Bool.false_eq_true, iff_false]
    split <;> omega

theorem getElem?_partitionPoint {below : A → Bool} {items : Array A}
    (partitioned : Partitioned below items) :
    items[partitionPoint below items]? = items.toList.find? (!below ·) := by
  have split := fun (n : Nat) (a : A) => @lt_partitionPoint_iff _ _ _ partitioned n a
  generalize partitionPoint below items = point at split
  symm
  cases found : items[point]? with
  | none =>
    refine List.find?_eq_none.2 fun a member => ?_
    obtain ⟨n, atN⟩ := List.mem_iff_getElem?.1 member
    rw [Array.getElem?_toList] at atN
    have inside := (Array.getElem?_eq_some_iff.1 atN).1
    have past := Array.getElem?_eq_none_iff.1 found
    simp [(split n a atN).1 (by omega)]
  | some a =>
    obtain ⟨bound, rfl⟩ := Array.getElem?_eq_some_iff.1 found
    refine List.find?_eq_some_iff_getElem.2 ⟨?_, point, bound, by simp, fun n before => ?_⟩
    · have fails := mt (split point _ found).2 (Nat.lt_irrefl _)
      simpa using fails
    · have inside : n < items.size := Nat.lt_trans before bound
      simp [(split n _ (Array.getElem?_eq_getElem inside)).1 before]

theorem below_of_mem_take {below : A → Bool} {items : Array A}
    (partitioned : Partitioned below items) {a : A}
    (member : a ∈ items.toList.take (partitionPoint below items)) : below a = true := by
  obtain ⟨n, inside, rfl⟩ := List.mem_take_iff_getElem.1 member
  rw [Nat.lt_min] at inside
  have found : items[n]? = some items.toList[n] := by simp
  exact (lt_partitionPoint_iff partitioned found).1 inside.1

theorem not_below_of_mem_drop {below : A → Bool} {items : Array A}
    (partitioned : Partitioned below items) {a : A}
    (member : a ∈ items.toList.drop (partitionPoint below items)) : below a = false := by
  obtain ⟨n, inside, rfl⟩ := List.mem_drop_iff_getElem.1 member
  refine Bool.eq_false_iff.2 fun meets => ?_
  have found : items[partitionPoint below items + n]? =
      some items.toList[partitionPoint below items + n] := by simp
  have before := (lt_partitionPoint_iff partitioned found).2 meets
  omega

theorem takeWhile_eq_take_partitionPoint {below : A → Bool} {items : Array A}
    (partitioned : Partitioned below items) :
    items.toList.takeWhile below = items.toList.take (partitionPoint below items) := by
  have split := List.take_append_drop (partitionPoint below items) items.toList
  have front := fun a => @below_of_mem_take _ _ _ partitioned a
  have back := fun a => @not_below_of_mem_drop _ _ _ partitioned a
  generalize items.toList.take (partitionPoint below items) = first at split front ⊢
  generalize items.toList.drop (partitionPoint below items) = second at split back
  rw [← split, List.takeWhile_append_of_pos front]
  cases second with
  | nil => simp
  | cons b rest => simp [back b List.mem_cons_self]

theorem partitionPoint_le_size (below : A → Bool) (items : Array A) :
    partitionPoint below items ≤ items.size := by
  unfold partitionPoint
  simp only
  split
  next found =>
    have bound := (Array.getElem?_eq_some_iff.1 found).1
    split <;> omega
  next => omega

end SourceScope
