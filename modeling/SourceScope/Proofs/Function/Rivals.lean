import SourceScope.Proofs.Function.Innermost
import SourceScope.Proofs.Function.Inserted

set_option autoImplicit false

namespace SourceScope.FunctionSet

def Holds (set : FunctionSet) (id : FunctionId) (r : CodeRange) : Prop :=
  ∃ f, set.get? id = some f ∧ r ∈ f.ranges

structure Encloses (set : FunctionSet) (address : UInt32) (p : CodeRange × FunctionId) : Prop where
  held : set.Holds p.2 p.1
  inside : p.1.contains address = true

/-- The first of two numbered ranges is closer, or as close and of a lower number. -/
def Beats (p q : CodeRange × Nat) : Prop :=
  p.1.Closer q.1 ∨ ¬q.1.Closer p.1 ∧ p.2 < q.2

section Order

variable {p q w : CodeRange × Nat}

theorem beats_iff_rank :
    Beats p q ↔ p.1.rank < q.1.rank ∨ p.1.rank = q.1.rank ∧ p.2 < q.2 := by
  unfold Beats
  rw [CodeRange.closer_iff_rank, CodeRange.closer_iff_rank]
  omega

theorem Beats.trans (first : Beats p q) (second : Beats q w) : Beats p w := by
  rw [beats_iff_rank] at *
  omega

theorem eq_of_not_beats (left : ¬Beats p q) (right : ¬Beats q p) : p.2 = q.2 := by
  rw [beats_iff_rank] at left right
  omega

end Order

theorem not_beats_innermost? {items : List (CodeRange × Nat)} {p : CodeRange × Nat}
    (ascending : items.Pairwise fun a b => a.2 < b.2) (found : innermost? Prod.fst items = some p) :
    ∀ q ∈ items, ¬Beats q p := by
  obtain ⟨before, after, rfl, farther, least⟩ := (innermost?_eq_some_iff Prod.fst).1 found
  have later := (List.pairwise_append.1 ascending).2.1
  intro q member
  rw [beats_iff_rank]
  rcases List.mem_append.1 member with first | last
  · have := (CodeRange.closer_iff_rank _ _).1 (farther q first)
    omega
  rcases List.mem_cons.1 last with rfl | last
  · omega
  · have := mt (CodeRange.closer_iff_rank _ _).2 (least q last)
    have := (List.pairwise_cons.1 later).1 q last
    omega

def nearest (set : FunctionSet) (address : UInt32) : List (CodeRange × FunctionId) :=
  set.toList.filterMap fun (id, f) => (f.rangeAt? address).map (·, id)

theorem nearest_ascending (set : FunctionSet) (address : UInt32) :
    (set.nearest address).Pairwise fun a b => a.2 < b.2 := by
  refine set.toList_numbered.filterMap _ fun a b before p atA q atB => ?_
  obtain ⟨_, -, rfl⟩ := Option.map_eq_some_iff.1 atA
  obtain ⟨_, -, rfl⟩ := Option.map_eq_some_iff.1 atB
  exact before

theorem mem_nearest {set : FunctionSet} {address : UInt32} {p : CodeRange × FunctionId} :
    p ∈ set.nearest address ↔ ∃ f, set.get? p.2 = some f ∧ f.rangeAt? address = some p.1 := by
  simp only [nearest, List.mem_filterMap]
  constructor
  · rintro ⟨⟨id, f⟩, listed, found⟩
    obtain ⟨r, atAddress, rfl⟩ := Option.map_eq_some_iff.1 found
    exact ⟨f, mem_toList.1 listed, atAddress⟩
  · rintro ⟨f, found, atAddress⟩
    exact ⟨(p.2, f), mem_toList.2 found, by simp [atAddress]⟩

theorem smallestEnclosing?_eq (set : FunctionSet) (address : UInt32) :
    set.smallestEnclosing? address = (innermost? Prod.fst (set.nearest address)).map (·.2) :=
  rfl

theorem exists_unbeaten {set : FunctionSet} {address : UInt32} {owner : FunctionId}
    (owned : set.smallestEnclosing? address = some owner) :
    ∃ r, set.Encloses address (r, owner) ∧ ∀ q, set.Encloses address q → ¬Beats q (r, owner) := by
  rw [smallestEnclosing?_eq] at owned
  obtain ⟨⟨r, _⟩, found, rfl⟩ := Option.map_eq_some_iff.1 owned
  obtain ⟨f, atOwner, atAddress⟩ := mem_nearest.1 (innermost?_mem Prod.fst found)
  obtain ⟨listed, inside⟩ := List.mem_filter.1 (innermost?_mem id atAddress)
  refine ⟨r, ⟨⟨f, atOwner, listed⟩, inside⟩, ?_⟩
  rintro ⟨s, other⟩ ⟨⟨g, atOther, listed⟩, inside⟩ beats
  -- the closest range of the other function would go before `r` too
  obtain ⟨t, atAddress⟩ := SourceFunction.rangeAt?_isSome (List.any_eq_true.2 ⟨s, listed, inside⟩)
  have least := not_closer_innermost? id atAddress s (List.mem_filter.2 ⟨listed, inside⟩)
  have unbeaten := not_beats_innermost? (nearest_ascending set address) found (t, other)
    (mem_nearest.2 ⟨g, atOther, atAddress⟩)
  simp only [beats_iff_rank, CodeRange.closer_iff_rank, id] at beats least unbeaten
  omega

theorem covered_of_owned {set : FunctionSet} {address : UInt32} {owner : FunctionId}
    (owned : set.smallestEnclosing? address = some owner) : Covered set.ranges address := by
  obtain ⟨r, encloses, -⟩ := exists_unbeaten owned
  obtain ⟨f, atOwner, listed⟩ := encloses.held
  exact ⟨r, List.mem_flatMap.2 ⟨f, List.mem_of_getElem? atOwner, listed⟩, encloses.inside⟩

theorem smallestEnclosing?_eq_none_iff {set : FunctionSet} {address : UInt32} :
    set.smallestEnclosing? address = none ↔ ¬Covered set.ranges address := by
  constructor
  · rintro unowned ⟨r, listed, inside⟩
    obtain ⟨id, owned⟩ := smallestEnclosing?_isSome listed inside
    cases unowned.symm.trans owned
  · intro uncovered
    cases owned : set.smallestEnclosing? address with
    | none => rfl
    | some id => exact absurd (covered_of_owned owned) uncovered

theorem smallestEnclosing?_eq_some_iff {set : FunctionSet} {address : UInt32}
    {owner : FunctionId} :
    set.smallestEnclosing? address = some owner ↔
      ∃ r, set.Encloses address (r, owner) ∧ ∀ q, set.Encloses address q → ¬Beats q (r, owner) := by
  refine ⟨exists_unbeaten, ?_⟩
  rintro ⟨r, encloses, least⟩
  obtain ⟨f, atOwner, listed⟩ := encloses.held
  obtain ⟨other, owned⟩ := smallestEnclosing?_isSome
    (List.mem_flatMap.2 ⟨f, List.mem_of_getElem? atOwner, listed⟩) encloses.inside
  obtain ⟨s, found, unbeaten⟩ := exists_unbeaten owned
  have same : other = owner := eq_of_not_beats (least _ found) (unbeaten _ encloses)
  rw [owned, same]

structure Closest (set : FunctionSet) (address : UInt32) (p : CodeRange × FunctionId) : Prop where
  around : set.Encloses address p
  least : ∀ q, set.Encloses address q → ¬q.1.Closer p.1

/-- An address has no function exactly if it is in none. Otherwise its function is the one of the
lowest number that has one of the closest ranges around it. -/
theorem smallestEnclosing?_closest (set : FunctionSet) (address : UInt32) :
    (set.smallestEnclosing? address = none ↔ ¬Covered set.ranges address) ∧
      ∀ id, set.smallestEnclosing? address = some id ↔
        (∃ r, set.Closest address (r, id)) ∧
          ∀ r other, set.Closest address (r, other) → id ≤ other := by
  refine ⟨smallestEnclosing?_eq_none_iff, fun id => ?_⟩
  rw [smallestEnclosing?_eq_some_iff]
  constructor
  · rintro ⟨r, encloses, unbeaten⟩
    refine ⟨⟨r, encloses, fun q around closer => unbeaten q around (.inl closer)⟩, ?_⟩
    intro s other closest
    by_contra lower
    exact unbeaten _ closest.around (.inr ⟨closest.least _ encloses, Nat.lt_of_not_le lower⟩)
  · rintro ⟨⟨r, closest⟩, lowest⟩
    refine ⟨r, closest.around, ?_⟩
    rintro ⟨s, other⟩ around (closer | ⟨alike, lower⟩)
    · exact closest.least _ around closer
    · -- a range as close as `r` is among the closest too
      have also : set.Closest address (s, other) := by
        refine ⟨around, fun q within closer => ?_⟩
        have := closest.least q within
        rw [CodeRange.closer_iff_rank] at *
        omega
      exact Nat.not_lt.2 (lowest s other also) lower

section Insertions

variable {set : FunctionSet}

theorem find?_eq_findIdx? (set : FunctionSet) (name : String) :
    set.find? name = set.names.findIdx? (· == name) :=
  findIdx?_name set.functions name

theorem find?_insert_self (set : FunctionSet) (f : SourceFunction) :
    (set.insert f).2.find? f.name = some (set.insert f).1 := by
  rw [find?_eq_findIdx?, names_insert]
  unfold insert
  simp only [withInstances_name]
  cases found : set.find? f.name with
  | some id =>
    obtain ⟨g, atId, same⟩ := of_find? found
    have known : f.name ∈ set.names := List.mem_map.2 ⟨g, List.mem_of_getElem? atId, same⟩
    rw [if_pos known, ← find?_eq_findIdx?, found]
  | none =>
    rw [if_neg ((find?_eq_none_iff set f.name).1 found), List.findIdx?_append, ← find?_eq_findIdx?,
      found]
    simp [names]

theorem find?_insertAll {name : String} {id : FunctionId} (functions : List SourceFunction)
    (found : set.find? name = some id) : (set.insertAll functions).find? name = some id := by
  induction functions generalizing set with
  | nil => exact found
  | cons f rest ih =>
    refine @ih (set.insert f).2 ?_
    rw [find?_eq_findIdx?] at found ⊢
    rw [names_insert]
    split
    · exact found
    · simp [List.findIdx?_append, found]

theorem holds_insert (set : FunctionSet) (f : SourceFunction) (id : FunctionId) (r : CodeRange) :
    (set.insert f).2.Holds id r ↔ set.Holds id r ∨ ((set.insert f).1 = id ∧ r ∈ f.ranges) := by
  unfold insert
  simp only [withInstances_name]
  cases found : set.find? f.name with
  | some same =>
    obtain ⟨old, atSame, -⟩ := of_find? found
    by_cases here : same = id
    · subst here
      have both : r ∈ (old.merge f.withInstances).ranges ↔
          r ∈ old.ranges ∨ r ∈ f.withInstances.ranges := SourceFunction.mem_foldl_addRange _ _ r
      rw [f.withInstances_ranges] at both
      simp [Holds, get?, atSame, both]
    · simp [Holds, get?, here]
  | none =>
    by_cases here : set.functions.length = id
    · subst here
      simp [Holds, get?, f.withInstances_ranges]
    · have kept : (set.functions ++ [f.withInstances])[id]? = set.functions[id]? := by
        rw [List.getElem?_append]
        split
        · rfl
        next past =>
          have beyond : [f.withInstances].length ≤ id - set.functions.length := by
            rw [List.length_singleton]
            omega
          rw [List.getElem?_eq_none beyond, List.getElem?_eq_none (Nat.le_of_not_lt past)]
      simp [Holds, get?, kept, here]

theorem holds_insertAll (set : FunctionSet) (functions : List SourceFunction) (id : FunctionId)
    (r : CodeRange) :
    (set.insertAll functions).Holds id r ↔ set.Holds id r ∨
      ∃ f ∈ functions, (set.insertAll functions).find? f.name = some id ∧ r ∈ f.ranges := by
  induction functions generalizing set with
  | nil => simp [insertAll]
  | cons f rest ih =>
    have last := find?_insertAll rest (find?_insert_self set f)
    have here : (set.insertAll (f :: rest)).Holds id r ↔ _ := ih (set.insert f).2
    have number : (set.insertAll (f :: rest)).find? f.name = some (set.insert f).1 := last
    rw [here, holds_insert]
    simp only [List.exists_mem_cons_iff, number, Option.some.injEq, or_assoc]
    rfl

structure Rival (set : FunctionSet) (functions : List SourceFunction) (address : UInt32)
    (p : CodeRange × FunctionId) : Prop where
  inserted : ∃ f ∈ functions, (set.insertAll functions).find? f.name = some p.2 ∧ p.1 ∈ f.ranges
  inside : p.1.contains address = true

theorem encloses_insertAll (set : FunctionSet) (functions : List SourceFunction)
    (address : UInt32) (p : CodeRange × FunctionId) :
    (set.insertAll functions).Encloses address p ↔
      set.Encloses address p ∨ Rival set functions address p := by
  constructor
  · rintro ⟨held, inside⟩
    exact ((holds_insertAll set functions p.2 p.1).1 held).imp (⟨·, inside⟩) (⟨·, inside⟩)
  · rintro (⟨held, inside⟩ | ⟨inserted, inside⟩)
    · exact ⟨(holds_insertAll set functions p.2 p.1).2 (.inl held), inside⟩
    · exact ⟨(holds_insertAll set functions p.2 p.1).2 (.inr inserted), inside⟩

variable {functions : List SourceFunction} {address : UInt32} {owner other : FunctionId}

theorem owner_insertAll_iff (owned : set.smallestEnclosing? address = some owner) :
    (set.insertAll functions).smallestEnclosing? address = some owner ↔
      ∃ r, (set.insertAll functions).Encloses address (r, owner) ∧
        ∀ q, Rival set functions address q → ¬Beats q (r, owner) := by
  rw [smallestEnclosing?_eq_some_iff]
  simp only [encloses_insertAll]
  constructor
  · rintro ⟨r, encloses, least⟩
    exact ⟨r, encloses, fun q rival => least q (.inr rival)⟩
  · rintro ⟨r, encloses, unrivalled⟩
    obtain ⟨s, before, least⟩ := exists_unbeaten owned
    -- the closer one of the two is beaten neither by what was there nor by what is new
    by_cases closer : s.Closer r
    · refine ⟨s, .inl before, ?_⟩
      rintro q (old | rival) beats
      · exact least q old beats
      · exact unrivalled q rival (beats.trans (.inl closer))
    · refine ⟨r, encloses, ?_⟩
      rintro q (old | rival) beats
      · refine least q old ?_
        simp only [beats_iff_rank, CodeRange.closer_iff_rank] at closer beats ⊢
        omega
      · exact unrivalled q rival beats

theorem owner_insertAll_cases (owned : set.smallestEnclosing? address = some owner)
    (after : (set.insertAll functions).smallestEnclosing? address = some other) :
    other = owner ∨ ∃ r, Rival set functions address (r, other) := by
  obtain ⟨r, encloses, least⟩ := exists_unbeaten after
  rcases (encloses_insertAll set functions address _).1 encloses with old | rival
  · have kept : set.smallestEnclosing? address = some other :=
      smallestEnclosing?_eq_some_iff.2 ⟨r, old, fun q held =>
        least q ((encloses_insertAll set functions address q).2 (.inl held))⟩
    exact .inl (Option.some.inj (kept.symm.trans owned))
  · exact .inr ⟨r, rival⟩

end Insertions

end SourceScope.FunctionSet
