import SourceScope.Variable.Resolve

set_option autoImplicit false

namespace SourceScope

namespace Variable

mutual

def forget : Variable → Variable
  | ⟨name, type, size, file, line, place, _, parts⟩ =>
    ⟨name, type, size, file, line, place, .pending, forgetAll parts⟩

def forgetAll : List Variable → List Variable
  | [] => []
  | part :: rest => forget part :: forgetAll rest

end

mutual

def resolutions : Variable → List Resolution
  | ⟨_, _, _, _, _, _, resolution, parts⟩ => resolution :: resolutionsOfAll parts

def resolutionsOfAll : List Variable → List Resolution
  | [] => []
  | part :: rest => resolutions part ++ resolutionsOfAll rest

end

-- Evaluation does not read the old resolutions, and it writes nothing else.

mutual

theorem updateIn_forget (env : Environment) (whole : Option Located) :
    (v : Variable) → v.forget.updateIn env whole = v.updateIn env whole
  | ⟨_, _, _, _, _, place, _, parts⟩ => by
    simp only [forget, updateIn, updateParts_forgetAll env (locate env place whole) parts]

theorem updateParts_forgetAll (env : Environment) (whole : Located) :
    (parts : List Variable) → updateParts env whole (forgetAll parts) = updateParts env whole parts
  | [] => rfl
  | part :: rest => by
    simp only [forgetAll, updateParts, updateIn_forget env (some whole) part,
      updateParts_forgetAll env whole rest]

end

mutual

theorem forget_updateIn (env : Environment) (whole : Option Located) :
    (v : Variable) → (v.updateIn env whole).forget = v.forget
  | ⟨_, _, _, _, _, place, _, parts⟩ => by
    simp only [forget, updateIn, forgetAll_updateParts env (locate env place whole) parts]

theorem forgetAll_updateParts (env : Environment) (whole : Located) :
    (parts : List Variable) → forgetAll (updateParts env whole parts) = forgetAll parts
  | [] => rfl
  | part :: rest => by
    simp only [forgetAll, updateParts, forget_updateIn env (some whole) part,
      forgetAll_updateParts env whole rest]

end

mutual

theorem forget_markOutOfScope : (v : Variable) → v.markOutOfScope.forget = v.forget
  | ⟨_, _, _, _, _, _, _, parts⟩ => by
    simp only [forget, markOutOfScope, forgetAll_markAllOutOfScope parts]

theorem forgetAll_markAllOutOfScope :
    (parts : List Variable) → forgetAll (markAllOutOfScope parts) = forgetAll parts
  | [] => rfl
  | part :: rest => by
    simp only [forgetAll, markAllOutOfScope, forget_markOutOfScope part,
      forgetAll_markAllOutOfScope rest]

end

mutual

theorem resolutions_markOutOfScope :
    (v : Variable) → ∀ r ∈ v.markOutOfScope.resolutions, r = .outOfScope
  | ⟨_, _, _, _, _, _, _, parts⟩ => by
    simpa only [markOutOfScope, resolutions, List.forall_mem_cons, true_and] using
      resolutionsOfAll_markAllOutOfScope parts

theorem resolutionsOfAll_markAllOutOfScope :
    (parts : List Variable) → ∀ r ∈ resolutionsOfAll (markAllOutOfScope parts), r = .outOfScope
  | [] => by simp [markAllOutOfScope, resolutionsOfAll]
  | part :: rest => by
    simp only [markAllOutOfScope, resolutionsOfAll, List.forall_mem_append]
    exact ⟨resolutions_markOutOfScope part, resolutionsOfAll_markAllOutOfScope rest⟩

end

mutual

theorem resolutions_forget : (v : Variable) → ∀ r ∈ v.forget.resolutions, r = .pending
  | ⟨_, _, _, _, _, _, _, parts⟩ => by
    simpa only [forget, resolutions, List.forall_mem_cons, true_and] using
      resolutionsOfAll_forgetAll parts

theorem resolutionsOfAll_forgetAll :
    (parts : List Variable) → ∀ r ∈ resolutionsOfAll (forgetAll parts), r = .pending
  | [] => by simp [forgetAll, resolutionsOfAll]
  | part :: rest => by
    simp only [forgetAll, resolutionsOfAll, List.forall_mem_append]
    exact ⟨resolutions_forget part, resolutionsOfAll_forgetAll rest⟩

end

theorem update_congr (env : Environment) {v w : Variable} (same : v.forget = w.forget) :
    v.update env = w.update env := by
  rw [update, update, ← updateIn_forget env none v, same, updateIn_forget]

@[simp] theorem forget_update (env : Environment) (v : Variable) :
    (v.update env).forget = v.forget :=
  forget_updateIn env none v

def Fresh (v : Variable) : Prop := v.forget = v

theorem Fresh.resolutions {v : Variable} (fresh : v.Fresh) : ∀ r ∈ v.resolutions, r = .pending := by
  rw [← fresh]
  exact resolutions_forget v

theorem forgetAll_eq_map : (parts : List Variable) → forgetAll parts = parts.map forget
  | [] => rfl
  | part :: rest => by rw [forgetAll, forgetAll_eq_map rest, List.map_cons]

theorem layOut_fresh (types : TypeTable) (depth : Nat) (type : TypeId) :
    forgetAll (layOut types depth type) = layOut types depth type := by
  induction depth generalizing type with
  | zero => rfl
  | succ depth ih =>
    rw [layOut, forgetAll_eq_map, List.map_map]
    refine List.map_congr_left fun part _ => ?_
    simp only [Function.comp_apply, unevaluated, forget, ih]

end Variable

namespace VariableSet

structure Fresh (set : VariableSet) : Prop where
  globals : ∀ v ∈ set.globals, v.Fresh
  locals : ∀ l ∈ set.locals, l.variable_.Fresh

theorem variableOf_fresh (s : Source) (f : Facts) (place : VariablePlace) :
    (variableOf s f place).Fresh := by
  have laidOut := Variable.layOut_fresh s.types s.maxDepth f.type
  unfold variableOf
  split <;> simp [Variable.Fresh, Variable.make, Variable.unevaluated, Variable.forget, laidOut]

theorem listLocals_fresh (s : Source) (f : Facts) (entries : List Location.Entry) :
    ∀ l ∈ listLocals s f entries, l.variable_.Fresh := by
  intro l member
  obtain ⟨item, -, made⟩ := List.mem_filterMap.1 member
  obtain ⟨range, -, rfl⟩ := Option.map_eq_some_iff.1 made
  exact variableOf_fresh s f _

theorem scopeLocals_fresh (s : Source) (f : Facts) (place : VariablePlace)
    (scope : SourceScope.Entry) : ∀ l ∈ scopeLocals s f place scope, l.variable_.Fresh := by
  intro l member
  obtain ⟨range, -, rfl⟩ := List.mem_map.1 member
  exact variableOf_fresh s f place

theorem Fresh.addGlobal {set : VariableSet} (fresh : set.Fresh) {v : Variable} (new : v.Fresh) :
    (set.addGlobal v).Fresh where
  globals := by
    simp only [VariableSet.addGlobal, List.forall_mem_append, List.forall_mem_singleton]
    exact ⟨fresh.globals, new⟩
  locals := fresh.locals

theorem Fresh.addLocals {set : VariableSet} (fresh : set.Fresh) {found : List LocalVariable}
    (new : ∀ l ∈ found, l.variable_.Fresh) : (set.addLocals found).Fresh where
  globals := fresh.globals
  locals := by
    simp only [VariableSet.addLocals, List.forall_mem_append]
    exact ⟨fresh.locals, new⟩

theorem Fresh.addEntry (s : Source) {set : VariableSet} (fresh : set.Fresh)
    (entry : SourceScope.Entry) : (addEntry s set entry).Fresh := by
  unfold VariableSet.addEntry
  split
  · exact fresh
  split
  · exact fresh
  next f _ =>
    simp only
    split
    · exact fresh.addGlobal (variableOf_fresh s f _)
    split
    · exact fresh.addLocals (listLocals_fresh s f _)
    · exact fresh.addLocals (scopeLocals_fresh s f _ _)
    · exact fresh

theorem resolve_fresh (s : Source) : (resolve s).Fresh := by
  have step (entries : List SourceScope.Entry) (set : VariableSet) (fresh : set.Fresh) :
      (entries.foldl (addEntry s) set).Fresh := by
    induction entries generalizing set with
    | nil => exact fresh
    | cons entry rest ih => exact ih _ (fresh.addEntry s entry)
  refine step s.index.entries .empty ⟨?_, ?_⟩ <;> simp [empty]

end VariableSet

end SourceScope
