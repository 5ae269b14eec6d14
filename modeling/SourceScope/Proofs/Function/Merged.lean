import Mathlib.Data.List.Nodup
import SourceScope.Proofs.Function.Driver

set_option autoImplicit false

namespace SourceScope

theorem mem_modify_iff {A : Type} {items : List A} {index : Nat} {old : A}
    (found : items[index]? = some old) (f : A → A) (a : A) :
    a ∈ items.modify index f ↔ a = f old ∨ ∃ n, n ≠ index ∧ items[n]? = some a := by
  rw [List.mem_iff_getElem?]
  simp only [List.getElem?_modify, Option.map_eq_map, Option.map_eq_some_iff]
  constructor
  · rintro ⟨n, b, atN, rfl⟩
    by_cases here : index = n
    · subst here
      obtain rfl := Option.some.inj (atN.symm.trans found)
      exact .inl (if_pos rfl)
    · rw [if_neg here]
      exact .inr ⟨n, Ne.symm here, atN⟩
  · rintro (rfl | ⟨n, differs, atN⟩)
    · exact ⟨index, old, found, if_pos rfl⟩
    · exact ⟨n, a, atN, if_neg (Ne.symm differs)⟩

namespace FunctionSet

def names (set : FunctionSet) : List String := set.functions.map (·.name)

def Owns (set : FunctionSet) (name : String) (r : CodeRange) : Prop :=
  ∃ f ∈ set.functions, f.name = name ∧ r ∈ f.ranges

theorem withInstances_name (f : SourceFunction) : f.withInstances.name = f.name := by
  unfold SourceFunction.withInstances
  split <;> rfl

theorem find?_eq_none_iff (set : FunctionSet) (name : String) :
    set.find? name = none ↔ name ∉ set.names := by
  simp [find?, names]

theorem of_find? {set : FunctionSet} {name : String} {id : FunctionId}
    (found : set.find? name = some id) : ∃ f, set.functions[id]? = some f ∧ f.name = name := by
  obtain ⟨bound, same, -⟩ := List.findIdx?_eq_some_iff_getElem.1 found
  exact ⟨_, List.getElem?_eq_getElem bound, by simpa using same⟩

theorem names_modify (functions : List SourceFunction) (id : FunctionId) (f : SourceFunction) :
    (functions.modify id (·.merge f)).map (·.name) = functions.map (·.name) := by
  refine List.ext_getElem? fun n => ?_
  simp only [List.getElem?_map, List.getElem?_modify, Option.map_eq_map, Option.map_map]
  refine Option.map_congr fun g _ => ?_
  by_cases here : id = n <;> simp [here, SourceFunction.merge]

theorem names_insert (set : FunctionSet) (f : SourceFunction) :
    (set.insert f).2.names = if f.name ∈ set.names then set.names else set.names ++ [f.name] := by
  unfold insert
  simp only [withInstances_name]
  split
  next id found =>
    obtain ⟨g, atId, same⟩ := of_find? found
    have known : f.name ∈ set.names := List.mem_map.2 ⟨g, List.mem_of_getElem? atId, same⟩
    rw [if_pos known]
    exact names_modify _ _ _
  next missing =>
    rw [if_neg ((find?_eq_none_iff set f.name).1 missing)]
    simp [names, withInstances_name]

theorem names_insert_nodup {set : FunctionSet} (distinct : set.names.Nodup) (f : SourceFunction) :
    (set.insert f).2.names.Nodup := by
  rw [names_insert]
  split
  next => exact distinct
  next fresh =>
    refine List.nodup_append.2 ⟨distinct, by simp, ?_⟩
    rintro a among b last rfl
    exact fresh (List.mem_singleton.1 last ▸ among)

theorem name_insert (set : FunctionSet) (f : SourceFunction) :
    (set.insert f).2.names[(set.insert f).1]? = some f.name := by
  unfold insert
  simp only [withInstances_name]
  split
  next id found =>
    obtain ⟨g, atId, same⟩ := of_find? found
    simp only [names, names_modify]
    rw [List.getElem?_map, atId, Option.map_some, same]
  next => simp [names, withInstances_name]

theorem owns_modify {set : FunctionSet} {id : FunctionId} {old : SourceFunction}
    (found : set.functions[id]? = some old) (f : SourceFunction) (name : String) (r : CodeRange) :
    Owns { set with functions := set.functions.modify id (·.merge f) } name r ↔
      set.Owns name r ∨ (old.name = name ∧ r ∈ f.ranges) := by
  have ranges : r ∈ (old.merge f).ranges ↔ r ∈ old.ranges ∨ r ∈ f.ranges :=
    SourceFunction.mem_foldl_addRange _ _ r
  simp only [Owns, mem_modify_iff found]
  constructor
  · rintro ⟨g, rfl | ⟨n, -, atN⟩, named, member⟩
    · rcases ranges.1 member with before | added
      · exact .inl ⟨old, List.mem_of_getElem? found, named, before⟩
      · exact .inr ⟨named, added⟩
    · exact .inl ⟨g, List.mem_of_getElem? atN, named, member⟩
  · rintro (⟨g, among, named, member⟩ | ⟨named, member⟩)
    · obtain ⟨n, atN⟩ := List.mem_iff_getElem?.1 among
      by_cases here : n = id
      · subst here
        obtain rfl := Option.some.inj (atN.symm.trans found)
        exact ⟨_, .inl rfl, named, ranges.2 (.inl member)⟩
      · exact ⟨g, .inr ⟨n, here, atN⟩, named, member⟩
    · exact ⟨_, .inl rfl, named, ranges.2 (.inr member)⟩

theorem owns_insert (set : FunctionSet) (f : SourceFunction) (name : String) (r : CodeRange) :
    (set.insert f).2.Owns name r ↔ set.Owns name r ∨ (f.name = name ∧ r ∈ f.ranges) := by
  unfold insert
  simp only [withInstances_name]
  split
  next id found =>
    obtain ⟨old, atId, same⟩ := of_find? found
    rw [owns_modify atId, same, f.withInstances_ranges]
  next =>
    simp only [Owns, List.mem_append, List.mem_singleton, or_and_right, exists_or, exists_eq_left,
      withInstances_name, f.withInstances_ranges]

-- A set that took in the instances of a list, each noted under the offset of its entry.
structure Gathered (instances : List (Nat × SourceFunction)) (set : FunctionSet) : Prop where
  distinct : set.names.Nodup
  named : ∀ name, name ∈ set.names ↔ ∃ p ∈ instances, p.2.name = name
  owns : ∀ name r, set.Owns name r ↔ ∃ p ∈ instances, p.2.name = name ∧ r ∈ p.2.ranges
  noted : ∀ offset id, set.forEntry? offset = some id →
    ∃ p ∈ instances, p.1 = offset ∧ set.names[id]? = some p.2.name
  complete : ∀ p ∈ instances, ∃ id, set.forEntry? p.1 = some id

theorem gathered_empty : Gathered [] empty := by
  constructor <;> simp [empty, names, Owns, forEntry?]

theorem forEntry?_noteEntry (set : FunctionSet) (offset : Nat) (id : FunctionId) (other : Nat) :
    FunctionSet.forEntry? (set.noteEntry offset id) other =
      if other = offset then some id else set.forEntry? other := by
  by_cases same : other = offset <;>
    simp [ forEntry?, noteEntry, List.lookup_cons, same, beq_false_of_ne]

theorem forEntry?_insert (set : FunctionSet) (f : SourceFunction) (offset : Nat) :
    FunctionSet.forEntry? (set.insert f).2 offset = set.forEntry? offset := by
  unfold insert
  dsimp only
  split <;> rfl

theorem Gathered.insert {instances : List (Nat × SourceFunction)} {set : FunctionSet}
    (gathered : Gathered instances set) (offset : Nat) (f : SourceFunction) :
    Gathered (instances ++ [(offset, f)])
      ((set.insert f).2.noteEntry offset (set.insert f).1) := by
  have names : ((set.insert f).2.noteEntry offset (set.insert f).1).names =
      if f.name ∈ set.names then set.names else set.names ++ [f.name] := names_insert set f
  have kept (id : FunctionId) (name : String) (found : set.names[id]? = some name) :
      ((set.insert f).2.noteEntry offset (set.insert f).1).names[id]? = some name := by
    rw [names]
    split
    · exact found
    · rw [List.getElem?_append_left (List.getElem?_eq_some_iff.1 found).1, found]
  constructor
  case distinct => exact names_insert_nodup gathered.distinct f
  case named =>
    intro name
    rw [names]
    have before := gathered.named name
    by_cases known : f.name ∈ set.names
    · rw [if_pos known, before]
      simp only [List.mem_append, List.mem_singleton, or_and_right, exists_or, exists_eq_left,
        iff_self_or]
      rintro rfl
      exact (gathered.named f.name).1 known
    · simp [known, before, or_and_right, exists_or, eq_comm]
  case owns =>
    intro name r
    have added : Owns ((set.insert f).2.noteEntry offset (set.insert f).1) name r ↔ _ :=
      owns_insert set f name r
    rw [added, gathered.owns]
    simp [or_and_right, exists_or]
  case noted =>
    intro other id found
    rw [forEntry?_noteEntry, forEntry?_insert] at found
    split at found
    next same =>
      obtain rfl := Option.some.inj found
      exact ⟨(offset, f), by simp, same.symm, name_insert set f⟩
    next =>
      obtain ⟨p, among, same, named⟩ := gathered.noted other id found
      exact ⟨p, List.mem_append_left _ among, same, kept id _ named⟩
  case complete =>
    intro p among
    rw [forEntry?_noteEntry, forEntry?_insert]
    split
    next => exact ⟨_, rfl⟩
    next differs =>
      rcases List.mem_append.1 among with before | last
      · exact gathered.complete p before
      · rw [List.mem_singleton.1 last] at differs
        exact absurd rfl differs

theorem names_getElem? (set : FunctionSet) (id : FunctionId) :
    set.names[id]? = (set.get? id).map (·.name) :=
  List.getElem?_map

theorem Gathered.id_eq {occurring : List (Nat × SourceFunction)} {set : FunctionSet}
    (gathered : Gathered occurring set) {m n : FunctionId} {f g : SourceFunction}
    (first : set.get? m = some f) (second : set.get? n = some g) (same : f.name = g.name) :
    m = n := by
  have bound : m < set.names.length := by
    simpa [names] using (List.getElem?_eq_some_iff.1 first).1
  refine (List.getElem?_inj bound gathered.distinct).1 ?_
  rw [names_getElem?, names_getElem?, first, second, Option.map_some, Option.map_some, same]

theorem Gathered.mem_ranges_iff {occurring : List (Nat × SourceFunction)} {set : FunctionSet}
    (gathered : Gathered occurring set) {id : FunctionId} {f : SourceFunction}
    (found : set.get? id = some f) (r : CodeRange) :
    r ∈ f.ranges ↔ ∃ p ∈ occurring, p.2.name = f.name ∧ r ∈ p.2.ranges := by
  rw [← gathered.owns]
  constructor
  · exact fun member => ⟨f, List.mem_of_getElem? found, rfl, member⟩
  · rintro ⟨g, among, same, member⟩
    obtain ⟨n, atN⟩ := List.mem_iff_getElem?.1 among
    obtain rfl := gathered.id_eq atN found same
    obtain rfl := Option.some.inj (atN.symm.trans found)
    exact member

end FunctionSet

end SourceScope
