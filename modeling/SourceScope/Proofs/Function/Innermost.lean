import SourceScope.Proofs.Function.Owner

set_option autoImplicit false

namespace SourceScope

namespace CodeRange

def Closer (r s : CodeRange) : Prop :=
  r.size < s.size ∨ r.size = s.size ∧ r.inlined = true ∧ s.inlined = false

instance (r s : CodeRange) : Decidable (Closer r s) :=
  inferInstanceAs (Decidable (_ ∨ _ ∧ _ ∧ _))

def rank (r : CodeRange) : Nat := 2 * r.size + if r.inlined then 0 else 1

theorem closer_iff_rank (r s : CodeRange) : r.Closer s ↔ r.rank < s.rank := by
  unfold Closer rank
  cases r.inlined <;> cases s.inlined <;> simp <;> omega

end CodeRange

section

variable {A : Type} (rangeOf : A → CodeRange)

def closest : Option A → Option A → Option A
  | none, b => b
  | some a, none => some a
  | some a, some b => if (rangeOf b).Closer (rangeOf a) then some b else some a

theorem closest_none (a : Option A) : closest rangeOf a none = a := by
  cases a <;> rfl

theorem closest_eq_left {a : A} {b : Option A}
    (farther : ∀ c ∈ b, ¬(rangeOf c).Closer (rangeOf a)) :
    closest rangeOf (some a) b = some a := by
  cases b with
  | none => rfl
  | some c => exact if_neg (farther c rfl)

theorem closest_eq_right {a : Option A} {b : A}
    (closer : ∀ c ∈ a, (rangeOf b).Closer (rangeOf c)) :
    closest rangeOf a (some b) = some b := by
  cases a with
  | none => rfl
  | some c => exact if_pos (closer c rfl)

theorem closest_assoc (a b c : Option A) :
    closest rangeOf (closest rangeOf a b) c = closest rangeOf a (closest rangeOf b c) := by
  cases a with
  | none => rfl
  | some a =>
    cases b with
    | none => rfl
    | some b =>
      cases c with
      | none => simp only [closest_none]
      | some c =>
        by_cases ba : (rangeOf b).rank < (rangeOf a).rank <;>
          by_cases cb : (rangeOf c).rank < (rangeOf b).rank
        · have ca : (rangeOf c).rank < (rangeOf a).rank := Nat.lt_trans cb ba
          simp [closest, CodeRange.closer_iff_rank, ba, cb, ca]
        · simp [closest, CodeRange.closer_iff_rank, ba, cb]
        · simp [closest, CodeRange.closer_iff_rank, ba, cb]
        · have ca : ¬(rangeOf c).rank < (rangeOf a).rank := by omega
          simp [closest, CodeRange.closer_iff_rank, ba, cb, ca]

theorem innermost?_cons (a : A) (rest : List A) :
    innermost? rangeOf (a :: rest) = closest rangeOf (some a) (innermost? rangeOf rest) := by
  simp only [innermost?]
  cases innermost? rangeOf rest with
  | none => rfl
  | some b =>
    have keeps : ((rangeOf a).size < (rangeOf b).size ∨ (rangeOf a).size = (rangeOf b).size ∧
        ((rangeOf a).inlined = true ∨ (!(rangeOf b).inlined) = true)) ↔
        ¬(rangeOf b).Closer (rangeOf a) := by
      unfold CodeRange.Closer
      cases (rangeOf a).inlined <;> cases (rangeOf b).inlined <;> simp <;> omega
    simp only [closest, keeps, ite_not]

theorem innermost?_append (first second : List A) :
    innermost? rangeOf (first ++ second) =
      closest rangeOf (innermost? rangeOf first) (innermost? rangeOf second) := by
  induction first with
  | nil => rfl
  | cons a rest ih => rw [List.cons_append, innermost?_cons, ih, innermost?_cons, closest_assoc]

theorem innermost?_eq_none {items : List A} (none_ : innermost? rangeOf items = none) :
    items = [] := by
  cases items with
  | nil => rfl
  | cons a rest =>
    rw [innermost?_cons] at none_
    cases atRest : innermost? rangeOf rest with
    | none => simp [atRest, closest] at none_
    | some b =>
      simp only [atRest, closest] at none_
      split at none_ <;> cases none_

theorem not_closer_innermost? {items : List A} {a : A} (found : innermost? rangeOf items = some a) :
    ∀ b ∈ items, ¬(rangeOf b).Closer (rangeOf a) := by
  induction items generalizing a with
  | nil => cases found
  | cons first rest ih =>
    rw [innermost?_cons] at found
    cases atRest : innermost? rangeOf rest with
    | none =>
      obtain rfl := innermost?_eq_none rangeOf atRest
      obtain rfl : first = a := Option.some.inj found
      simp [CodeRange.closer_iff_rank]
    | some b =>
      have least := ih atRest
      simp only [atRest, closest, CodeRange.closer_iff_rank] at found least ⊢
      simp only [List.forall_mem_cons]
      split at found
      next closer =>
        obtain rfl := Option.some.inj found
        exact ⟨by omega, least⟩
      next closer =>
        obtain rfl := Option.some.inj found
        refine ⟨by omega, fun c member => ?_⟩
        have := least c member
        omega

theorem innermost?_eq_some_iff {items : List A} {a : A} :
    innermost? rangeOf items = some a ↔ ∃ before after, items = before ++ a :: after ∧
      (∀ b ∈ before, (rangeOf a).Closer (rangeOf b)) ∧
      ∀ b ∈ after, ¬(rangeOf b).Closer (rangeOf a) := by
  constructor
  · intro found
    induction items with
    | nil => cases found
    | cons first rest ih =>
      have least := not_closer_innermost? rangeOf found
      rw [innermost?_cons] at found
      cases atRest : innermost? rangeOf rest with
      | none =>
        rw [atRest, closest_none] at found
        obtain rfl := Option.some.inj found
        exact ⟨[], rest, rfl, by simp, fun b later => least b (List.mem_cons_of_mem _ later)⟩
      | some b =>
        simp only [atRest, closest] at found
        split at found
        next closer =>
          obtain rfl := Option.some.inj found
          obtain ⟨before, after, rfl, farther, least⟩ := ih atRest
          exact ⟨first :: before, after, rfl, List.forall_mem_cons.2 ⟨closer, farther⟩, least⟩
        next =>
          obtain rfl := Option.some.inj found
          exact ⟨[], rest, rfl, by simp, fun b later => least b (List.mem_cons_of_mem _ later)⟩
  · rintro ⟨before, after, rfl, farther, least⟩
    rw [innermost?_append, innermost?_cons,
      closest_eq_left rangeOf fun c last => least c (innermost?_mem rangeOf last)]
    exact closest_eq_right rangeOf fun c first => farther c (innermost?_mem rangeOf first)

end

end SourceScope
