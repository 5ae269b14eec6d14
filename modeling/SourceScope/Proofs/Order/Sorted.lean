import Mathlib.Data.List.Basic
import Mathlib.Data.String.Basic

set_option autoImplicit false

namespace SourceScope

section

variable {A : Type} (key : A → UInt32)

theorem key_trans (a b c : A) (first : decide (key a ≤ key b)) (second : decide (key b ≤ key c)) :
    decide (key a ≤ key c) :=
  decide_eq_true (UInt32.le_trans (of_decide_eq_true first) (of_decide_eq_true second))

theorem key_total (a b : A) : decide (key a ≤ key b) || decide (key b ≤ key a) := by
  simpa using UInt32.le_total (key a) (key b)

theorem mergeSort_ascending (items : List A) :
    (items.mergeSort fun a b => key a ≤ key b).Pairwise fun a b => key a ≤ key b :=
  (List.pairwise_mergeSort (key_trans key) (key_total key) items).imp of_decide_eq_true

theorem mergeSort_stable {le : A → A → Bool} (trans : ∀ a b c, le a b → le b c → le a c)
    (total : ∀ a b, le a b || le b a) {before : A → A → Prop} (reflexive : ∀ a, before a a)
    {items : List A} (ordered : items.Pairwise before) :
    (items.mergeSort le).Pairwise fun a b => le a b = true ∧ (le b a = true → before a b) := by
  rw [← List.mergeSort_zipIdx, List.pairwise_map]
  refine (List.pairwise_mergeSort (List.zipIdxLE_trans trans) (List.zipIdxLE_total total)
    items.zipIdx).imp_of_mem ?_
  rintro ⟨a, m⟩ ⟨b, n⟩ first second placed
  rw [List.mem_mergeSort, List.mk_mem_zipIdx_iff_getElem?] at first second
  obtain ⟨mBound, rfl⟩ := List.getElem?_eq_some_iff.1 first
  obtain ⟨nBound, rfl⟩ := List.getElem?_eq_some_iff.1 second
  unfold List.zipIdxLE at placed
  split at placed
  next below =>
    refine ⟨below, fun alike => ?_⟩
    rw [if_pos alike] at placed
    rcases Nat.eq_or_lt_of_le (of_decide_eq_true placed) with rfl | earlier
    · exact reflexive _
    · exact List.pairwise_iff_getElem.1 ordered m n mBound nBound earlier
  next => cases placed

end

section

variable {A : Type} [BEq A]

theorem eraseReps_loop_sublist (a : A) (rest done : List A) :
    (List.eraseRepsBy.loop (· == ·) a rest done).Sublist (done.reverse ++ a :: rest) := by
  induction rest generalizing a done with
  | nil => simp [List.eraseRepsBy.loop]
  | cons b rest ih =>
    by_cases same : (a == b) = true
    · simp only [List.eraseRepsBy.loop, same]
      refine (ih a done).trans (List.Sublist.append_left ?_ _)
      exact (List.sublist_cons_self b rest).cons_cons a
    · simp only [List.eraseRepsBy.loop, Bool.not_eq_true _ ▸ same]
      simpa using ih b (a :: done)

theorem eraseReps_sublist (items : List A) : items.eraseReps.Sublist items := by
  cases items with
  | nil => exact List.Sublist.refl _
  | cons a rest => simpa [List.eraseReps, List.eraseRepsBy] using eraseReps_loop_sublist a rest []

variable [LawfulBEq A]

theorem mem_eraseReps_loop (a : A) (rest done : List A) (x : A) :
    x ∈ List.eraseRepsBy.loop (· == ·) a rest done ↔ x ∈ done ∨ x = a ∨ x ∈ rest := by
  induction rest generalizing a done with
  | nil => simp [List.eraseRepsBy.loop, or_comm]
  | cons b rest ih =>
    by_cases same : (a == b) = true
    · obtain rfl := eq_of_beq same
      simp [List.eraseRepsBy.loop, ih]
    · simp only [List.eraseRepsBy.loop, Bool.not_eq_true _ ▸ same, ih, List.mem_cons]
      simp [or_assoc, or_left_comm]

theorem mem_eraseReps (items : List A) (x : A) : x ∈ items.eraseReps ↔ x ∈ items := by
  cases items with
  | nil => simp [List.eraseReps, List.eraseRepsBy]
  | cons a rest => simp [List.eraseReps, List.eraseRepsBy, mem_eraseReps_loop]

end

theorem transCmp_of_eq {A : Type} {order other : A → A → Ordering} (lawful : Std.TransCmp other)
    (same : ∀ a b, order a b = other a b) : Std.TransCmp order := by
  obtain rfl : order = other := funext₂ same
  exact lawful

section

variable {A : Type} {order : A → A → Ordering} [Std.TransCmp order] {items : List A}

theorem untied_perm {others : List A} (same : items.Perm others)
    (untied : others.Pairwise fun a b => order a b ≠ .eq) :
    items.Pairwise fun a b => order a b ≠ .eq :=
  (same.pairwise_iff fun different equal => different (Std.OrientedCmp.eq_symm equal)).2 untied

theorem mergeSort_ascends (untied : items.Pairwise fun a b => order a b ≠ .eq) :
    (items.mergeSort fun a b => (order a b).isLE).Pairwise fun a b => order a b = .lt := by
  have chained (a b c : A) (first : (order a b).isLE) (second : (order b c).isLE) :
      (order a c).isLE := Std.TransCmp.isLE_trans first second
  have total (a b : A) : ((order a b).isLE || (order b a).isLE) = true := by
    have turned : (order a b).isGE ↔ (order b a).isLE := Std.OrientedCmp.isGE_iff_isLE
    rw [Bool.or_eq_true, ← turned]
    cases order a b <;> simp
  have sorted := List.pairwise_mergeSort chained total items
  refine (sorted.and (untied_perm (List.mergeSort_perm _ _) untied)).imp ?_
  rintro a b ⟨below, different⟩
  cases compared : order a b with
  | lt => rfl
  | eq => exact absurd compared different
  | gt => simp [compared] at below

theorem mergeSort_descends (untied : items.Pairwise fun a b => order a b ≠ .eq) :
    (items.mergeSort fun a b => (order a b).isGE) =
      (items.mergeSort fun a b => (order a b).isLE).reverse := by
  have descending : (items.mergeSort fun a b => (order a b).isGE).Pairwise fun a b =>
      order b a = .lt := by
    have opposite : Std.TransCmp fun a b => order b a := Std.TransCmp.opposite
    have swapped : items.Pairwise fun a b => order b a ≠ .eq :=
      untied.imp fun different equal => different (Std.OrientedCmp.eq_symm equal)
    have turned (a b : A) : (order a b).isGE = (order b a).isLE :=
      Bool.eq_iff_iff.2 Std.OrientedCmp.isGE_iff_isLE
    simpa only [turned] using mergeSort_ascends swapped
  have reversed := List.pairwise_reverse.2 (mergeSort_ascends untied)
  refine List.Perm.eq_of_pairwise ?_ descending reversed ?_
  · intro a b _ _ first second
    rw [Std.OrientedCmp.gt_of_lt second] at first
    cases first
  · exact (List.mergeSort_perm _ _).trans
      ((List.mergeSort_perm _ _).symm.trans (List.reverse_perm _).symm)

end

theorem compare_option_lt {A : Type} [Ord A] [LT A]
    (word : ∀ a b : A, compare a b = .lt ↔ a < b) (a b : Option A) :
    compare a b = .lt ↔ a < b := by
  cases a with
  | none =>
    cases b with
    | none => simp
    | some b => exact iff_of_true rfl Option.none_lt_some
  | some a =>
    cases b with
    | none => exact iff_of_false nofun Option.not_lt_none
    | some b => exact word a b

end SourceScope
