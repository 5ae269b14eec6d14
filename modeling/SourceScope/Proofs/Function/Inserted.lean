import Mathlib.Data.List.Duplicate
import Mathlib.Data.List.Induction
import SourceScope.Proofs.Function.Merged

set_option autoImplicit false

namespace SourceScope

namespace FunctionSet

def insertAll (set : FunctionSet) (functions : List SourceFunction) : FunctionSet :=
  functions.foldl (fun set f => (set.insert f).2) set

def inserted (functions : List SourceFunction) : FunctionSet :=
  functions.foldl (fun set f => (set.insert f).2) .empty

def named? (set : FunctionSet) (name : String) : Option SourceFunction :=
  (set.find? name).bind set.get?

def ofName (functions : List SourceFunction) (name : String) : List SourceFunction :=
  functions.filter (·.name == name)

def joined : Option SourceFunction → SourceFunction → SourceFunction
  | none, f => f.withInstances
  | some before, f => before.merge f.withInstances

def merged (functions : List SourceFunction) : Option SourceFunction :=
  functions.foldl (fun before f => some (joined before f)) none

theorem named?_eq_find? (set : FunctionSet) (name : String) :
    set.named? name = set.functions.find? (·.name == name) :=
  List.find?_eq_bind_findIdx?_getElem?.symm

theorem findIdx?_name (functions : List SourceFunction) (name : String) :
    functions.findIdx? (·.name == name) = (functions.map (·.name)).findIdx? (· == name) := by
  rw [List.findIdx?_map, Function.comp_def]

theorem find?_modify {functions : List SourceFunction} {f : SourceFunction} {id : FunctionId}
    (found : functions.findIdx? (·.name == f.name) = some id) (other : SourceFunction)
    (name : String) :
    (functions.modify id (·.merge other)).find? (·.name == name) =
      if f.name = name then (functions.find? (·.name == name)).map (·.merge other)
      else functions.find? (·.name == name) := by
  -- a merged function keeps its name, so every name is found where it was
  have place : (functions.modify id (·.merge other)).findIdx? (·.name == name) =
      functions.findIdx? (·.name == name) := by
    rw [findIdx?_name, names_modify, ← findIdx?_name]
  simp only [List.find?_eq_bind_findIdx?_getElem?, place]
  split
  next same =>
    subst same
    simp [found]
  next differs =>
    refine Option.bind_congr fun n atN => ?_
    rw [List.getElem?_modify_ne]
    rintro rfl
    obtain ⟨bound, here, -⟩ := List.findIdx?_eq_some_iff_getElem.1 found
    obtain ⟨_, there, -⟩ := List.findIdx?_eq_some_iff_getElem.1 atN
    rw [beq_iff_eq] at here there
    exact differs (here.symm.trans there)

theorem named?_insert (set : FunctionSet) (f : SourceFunction) (name : String) :
    (set.insert f).2.named? name =
      if f.name = name then some (joined (set.named? name) f) else set.named? name := by
  simp only [named?_eq_find?]
  unfold insert
  simp only [withInstances_name]
  split
  next id found =>
    rw [find?_modify found]
    split
    next same =>
      subst same
      obtain ⟨old, atId, -⟩ := of_find? found
      have known : set.functions.find? (·.name == f.name) = some old := by
        rw [← named?_eq_find?, named?, found, Option.bind_some, get?, atId]
      rw [known, Option.map_some, joined]
    next => rfl
  next missing =>
    rw [List.find?_append]
    split
    next same =>
      subst same
      have absent : set.functions.find? (·.name == f.name) = none := by
        rw [← named?_eq_find?, named?, missing, Option.bind_none]
      simp [absent, joined, withInstances_name]
    next differs => simp [withInstances_name, differs]

theorem names_insertAll_nodup {set : FunctionSet} (distinct : set.names.Nodup)
    (functions : List SourceFunction) : (set.insertAll functions).names.Nodup := by
  induction functions generalizing set with
  | nil => exact distinct
  | cons f rest ih => exact ih (names_insert_nodup distinct f)

theorem insertAll_append (set : FunctionSet) (first second : List SourceFunction) :
    set.insertAll (first ++ second) = (set.insertAll first).insertAll second :=
  List.foldl_append

theorem mem_ranges_insertAll (set : FunctionSet) (functions : List SourceFunction) {r : CodeRange}
    (member : r ∈ set.ranges ∨ ∃ f ∈ functions, r ∈ f.ranges) :
    r ∈ (set.insertAll functions).ranges := by
  induction functions generalizing set with
  | nil => simpa [insertAll] using member
  | cons f rest ih =>
    refine ih (set.insert f).2 ?_
    rcases member with before | ⟨g, among, inRanges⟩
    · exact .inl (mem_ranges_insert set f (.inl before))
    rcases List.mem_cons.1 among with rfl | among
    · exact .inl (mem_ranges_insert set g (.inr inRanges))
    · exact .inr ⟨g, among, inRanges⟩

theorem named?_insertAll (set : FunctionSet) (functions : List SourceFunction) (name : String) :
    (set.insertAll functions).named? name =
      (ofName functions name).foldl (fun before f => some (joined before f)) (set.named? name) := by
  induction functions generalizing set with
  | nil => rfl
  | cons f rest ih =>
    rw [insertAll, List.foldl_cons, ← insertAll, ih, named?_insert]
    by_cases same : f.name = name <;> simp [ofName, same]

theorem named?_inserted (functions : List SourceFunction) (name : String) :
    (inserted functions).named? name = merged (ofName functions name) :=
  named?_insertAll .empty functions name

theorem merged_concat (functions : List SourceFunction) (f : SourceFunction) :
    merged (functions ++ [f]) = some (joined (merged functions) f) :=
  List.foldl_concat ..

theorem mem_ofName {functions : List SourceFunction} {name : String} {f : SourceFunction} :
    f ∈ ofName functions name ↔ f ∈ functions ∧ f.name = name := by
  simp [ofName]

theorem exists_merged {functions : List SourceFunction} (some_ : functions ≠ []) :
    ∃ f, merged functions = some f := by
  obtain rfl | ⟨before, last, rfl⟩ := List.eq_nil_or_concat functions
  · exact absurd rfl some_
  · rw [List.concat_eq_append, merged_concat]
    exact ⟨_, rfl⟩

theorem eq_nil_of_merged {functions : List SourceFunction} (none_ : merged functions = none) :
    functions = [] := by
  by_contra some_
  obtain ⟨f, made⟩ := exists_merged some_
  simp [none_] at made

theorem exists_named? {functions : List SourceFunction} {f : SourceFunction}
    (member : f ∈ functions) : ∃ g, (inserted functions).named? f.name = some g := by
  rw [named?_inserted]
  exact exists_merged (List.ne_nil_of_mem (mem_ofName.2 ⟨member, rfl⟩))

theorem mem_ranges_joined (before : Option SourceFunction) (f : SourceFunction) (r : CodeRange) :
    r ∈ (joined before f).ranges ↔ (∃ g ∈ before, r ∈ g.ranges) ∨ r ∈ f.ranges := by
  cases before with
  | none => simp [joined, SourceFunction.withInstances_ranges]
  | some g =>
    have both : r ∈ (g.merge f.withInstances).ranges ↔
        r ∈ g.ranges ∨ r ∈ f.withInstances.ranges := SourceFunction.mem_foldl_addRange _ _ r
    simpa [joined, SourceFunction.withInstances_ranges] using both

theorem mem_ranges_merged {functions : List SourceFunction} {f : SourceFunction}
    (made : merged functions = some f) (r : CodeRange) :
    r ∈ f.ranges ↔ ∃ g ∈ functions, r ∈ g.ranges := by
  induction functions using List.reverseRecOn generalizing f with
  | nil => cases made
  | append_singleton before last ih =>
    rw [merged_concat] at made
    obtain rfl := Option.some.inj made
    rw [mem_ranges_joined]
    cases earlier : merged before with
    | none =>
      obtain rfl := eq_nil_of_merged earlier
      simp
    | some g => simp [ih earlier, or_and_right, exists_or]

end FunctionSet

namespace SourceFunction

theorem duplicate_addRange (ranges : List CodeRange) (range r : CodeRange) :
    List.Duplicate r (addRange ranges range) ↔ List.Duplicate r ranges := by
  unfold addRange
  split
  next => rfl
  next absent =>
    have fresh : ranges.count range = 0 := List.count_eq_zero.2 (by simpa using absent)
    rw [List.duplicate_iff_two_le_count, List.duplicate_iff_two_le_count, List.count_append,
      List.count_singleton]
    by_cases same : range = r
    · subst same
      simp [fresh]
    · simp [same]

theorem duplicate_foldl_addRange (others ranges : List CodeRange) (r : CodeRange) :
    List.Duplicate r (others.foldl addRange ranges) ↔ List.Duplicate r ranges := by
  induction others generalizing ranges with
  | nil => rfl
  | cons first rest ih => rw [List.foldl_cons, ih, duplicate_addRange]

end SourceFunction

namespace FunctionSet

theorem head?_ofName (functions : List SourceFunction) (name : String) :
    (ofName functions name).head? = functions.find? (·.name == name) :=
  List.head?_filter

theorem duplicate_joined (before f : SourceFunction) (r : CodeRange) :
    List.Duplicate r (joined (some before) f).ranges ↔ List.Duplicate r before.ranges :=
  SourceFunction.duplicate_foldl_addRange _ _ r

theorem duplicate_merged {functions : List SourceFunction} {f : SourceFunction}
    (made : merged functions = some f) (r : CodeRange) :
    List.Duplicate r f.ranges ↔ ∃ first ∈ functions.head?, List.Duplicate r first.ranges := by
  induction functions using List.reverseRecOn generalizing f with
  | nil => cases made
  | append_singleton before last ih =>
    rw [merged_concat] at made
    obtain rfl := Option.some.inj made
    cases earlier : merged before with
    | none =>
      obtain rfl := eq_nil_of_merged earlier
      simp [joined, SourceFunction.withInstances_ranges]
    | some g =>
      rw [duplicate_joined, ih earlier]
      cases before with
      | nil => cases earlier
      | cons first rest => rfl

theorem named?_eq_some_iff {set : FunctionSet} (distinct : set.names.Nodup) {name : String}
    {f : SourceFunction} : set.named? name = some f ↔ f ∈ set.functions ∧ f.name = name := by
  rw [named?_eq_find?]
  constructor
  · intro found
    exact ⟨List.mem_of_find?_eq_some found, by simpa using List.find?_some found⟩
  · rintro ⟨member, rfl⟩
    obtain ⟨before, after, split⟩ := List.append_of_mem member
    refine List.find?_eq_some_iff_append.2 ⟨by simp, before, after, split, fun g earlier => ?_⟩
    rw [names, split, List.map_append, List.nodup_append] at distinct
    have differs := distinct.2.2 g.name (List.mem_map_of_mem earlier) f.name (by simp)
    simpa using differs

/-- A function has a range twice exactly if the one that was inserted first under its name came with
that range twice. -/
theorem duplicate_inserted_iff (functions : List SourceFunction) (name : String) (r : CodeRange) :
    (∃ f ∈ (inserted functions).functions, f.name = name ∧ List.Duplicate r f.ranges) ↔
      ∃ first ∈ functions.find? (·.name == name), List.Duplicate r first.ranges := by
  have distinct : (inserted functions).names.Nodup :=
    @names_insertAll_nodup empty List.nodup_nil functions
  simp only [← and_assoc, ← named?_eq_some_iff distinct, named?_inserted, ← head?_ofName]
  cases made : merged (ofName functions name) with
  | none => simp [eq_nil_of_merged made]
  | some f => simpa using duplicate_merged made r

def repeating : List SourceFunction :=
  [⟨"f", [⟨0x1000, 0x100f, false⟩, ⟨0x1000, 0x100f, false⟩], none, [], none, none, false⟩]

theorem repeating_kept : ¬∀ f ∈ (inserted repeating).functions, f.ranges.Nodup := by
  decide

end FunctionSet

end SourceScope
