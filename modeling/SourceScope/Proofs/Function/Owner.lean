import SourceScope.Listing.Stub

set_option autoImplicit false

namespace SourceScope

theorem innermost?_mem {A : Type} (rangeOf : A → CodeRange) {items : List A} {a : A}
    (found : innermost? rangeOf items = some a) : a ∈ items := by
  induction items generalizing a with
  | nil => simp [innermost?] at found
  | cons first rest ih =>
    simp only [innermost?] at found
    split at found
    next => simp_all
    next b atRest =>
      split at found
      · simp_all
      · obtain rfl := Option.some.inj found
        exact List.mem_cons_of_mem _ (ih atRest)

namespace FunctionSet

theorem insert_lt (set : FunctionSet) (f : SourceFunction) :
    (set.insert f).1 < (set.insert f).2.size := by
  unfold insert
  simp only [find?]
  split
  next id found =>
    obtain ⟨bound, -⟩ := List.findIdx?_eq_some_iff_getElem.1 found
    simpa [size] using bound
  next => simp [size]

theorem withDriver_lt (set : FunctionSet) (name : String) (opcodes : List Opcode) :
    (set.withDriver name opcodes).1 < (set.withDriver name opcodes).2.size :=
  insert_lt set _

theorem mem_toList {set : FunctionSet} {p : FunctionId × SourceFunction} :
    p ∈ set.toList ↔ set.get? p.1 = some p.2 := by
  simp only [toList, List.mem_mapIdx, get?]
  constructor
  · rintro ⟨id, bound, rfl⟩
    exact List.getElem?_eq_getElem bound
  · intro found
    obtain ⟨bound, same⟩ := List.getElem?_eq_some_iff.1 found
    exact ⟨p.1, bound, Prod.ext rfl same⟩

theorem toList_numbered (set : FunctionSet) : set.toList.Pairwise fun a b => a.1 < b.1 := by
  rw [List.pairwise_iff_getElem]
  intro m n _ _ before
  simpa [toList] using before

theorem smallestEnclosing?_mem {set : FunctionSet} {address : UInt32} {id : FunctionId}
    (found : set.smallestEnclosing? address = some id) :
    ∃ f range, set.get? id = some f ∧ f.rangeAt? address = some range := by
  obtain ⟨⟨range, other⟩, around, rfl⟩ := Option.map_eq_some_iff.1 found
  obtain ⟨⟨n, f⟩, member, here⟩ := List.mem_filterMap.1 (innermost?_mem Prod.fst around)
  obtain ⟨covering, atAddress, same⟩ := Option.map_eq_some_iff.1 here
  cases same
  exact ⟨f, range, mem_toList.1 member, atAddress⟩

theorem smallestEnclosing?_lt {set : FunctionSet} {address : UInt32} {id : FunctionId}
    (found : set.smallestEnclosing? address = some id) : id < set.size := by
  obtain ⟨_, _, atId, -⟩ := smallestEnclosing?_mem found
  exact (List.getElem?_eq_some_iff.1 atId).1

end FunctionSet

end SourceScope
