import Mathlib.Data.List.Perm.Subperm
import SourceScope.Model.Live
import SourceScope.Proofs.Variable.Fresh

set_option autoImplicit false

namespace SourceScope

def LocalVariable.forget (l : LocalVariable) : LocalVariable :=
  { l with variable_ := l.variable_.forget }

def SameLocals (a b : List LocalVariable) : Prop := a.map (·.forget) = b.map (·.forget)

namespace SourceModel

def scopeAt (model : SourceModel) (pc : UInt32) : List Nat := (model.scopedLocals pc).map (·.1)

theorem visibleLocals_ascending (model : SourceModel) (pc : UInt32) :
    (model.visibleLocals pc).Pairwise (·.1 < ·.1) := by
  refine List.Pairwise.sublist List.filter_sublist (List.pairwise_iff_getElem.2 ?_)
  simp

theorem foldl_keepBest_subperm (best visible : List (Nat × LocalVariable)) :
    (visible.foldl keepBest best).Subperm (best ++ visible) := by
  induction visible generalizing best with
  | nil => simpa using List.Subperm.refl best
  | cons p rest ih =>
    have step : (keepBest best p).Subperm (best ++ [p]) := by
      unfold keepBest
      split
      · exact (List.sublist_append_left best [p]).subperm
      · exact (List.filter_sublist.cons_cons p).subperm.trans
          (List.perm_append_singleton p best).symm.subperm
    have more := (List.subperm_append_right rest).2 step
    rw [List.append_assoc] at more
    exact (ih _).trans more

theorem bestLocals_subperm (model : SourceModel) (pc : UInt32) :
    (model.bestLocals pc).Subperm (model.visibleLocals pc) :=
  foldl_keepBest_subperm [] _

theorem scopeAt_ascending (model : SourceModel) (pc : UInt32) :
    (model.scopeAt pc).Pairwise (· < ·) := by
  obtain ⟨kept, perm, among⟩ := bestLocals_subperm model pc
  have ascending : (kept.map (·.1)).Pairwise (· < ·) :=
    List.pairwise_map.2 ((visibleLocals_ascending model pc).sublist among)
  have same : (model.scopeAt pc).Perm (kept.map (·.1)) :=
    ((List.mergeSort_perm ..).trans perm.symm).map _
  have distinct : (model.scopeAt pc).Nodup := same.nodup_iff.2 (ascending.imp Nat.ne_of_lt)
  have sorted : (model.scopeAt pc).Pairwise (· ≤ ·) := by
    refine List.pairwise_map.2 ((List.pairwise_mergeSort ?_ ?_ _).imp of_decide_eq_true)
    · intro a b c first second
      exact decide_eq_true (Nat.le_trans (of_decide_eq_true first) (of_decide_eq_true second))
    · intro a b
      simpa using Nat.le_total a.1 b.1
  exact (sorted.and distinct).imp fun ordered => Nat.lt_of_le_of_ne ordered.1 ordered.2

theorem getElem?_scopedLocals {model : SourceModel} {pc : UInt32} {p : Nat × LocalVariable}
    (inScope : p ∈ model.scopedLocals pc) : model.variableSet.locals[p.1]? = some p.2 := by
  have visible := (bestLocals_subperm model pc).subset (List.mem_mergeSort.1 inScope)
  obtain ⟨n, bound, rfl⟩ := List.mem_mapIdx.1 (List.mem_filter.1 visible).1
  exact List.getElem?_eq_getElem bound

theorem scopeAt_lt {model : SourceModel} {pc : UInt32} {i : Nat} (member : i ∈ model.scopeAt pc) :
    i < model.variableSet.locals.length := by
  obtain ⟨p, inScope, rfl⟩ := List.mem_map.1 member
  exact (List.getElem?_eq_some_iff.1 (getElem?_scopedLocals inScope)).1

def forgetAt (p : Nat × LocalVariable) : Nat × LocalVariable := (p.1, p.2.forget)

theorem keepBest_forgetAt (best : List (Nat × LocalVariable)) (p : Nat × LocalVariable) :
    keepBest (best.map forgetAt) (forgetAt p) = (keepBest best p).map forgetAt := by
  have name (l : LocalVariable) : l.forget.variable_.name = l.variable_.name := by
    obtain ⟨⟨_, _, _, _, _, _, _, _⟩, _, _⟩ := l
    rfl
  have range (l : LocalVariable) : l.forget.range = l.range := rfl
  simp only [keepBest, forgetAt, List.any_map, List.filter_map, Function.comp_def, name, range]
  split <;> rfl

theorem foldl_keepBest_forgetAt (best visible : List (Nat × LocalVariable)) :
    (visible.map forgetAt).foldl keepBest (best.map forgetAt) =
      (visible.foldl keepBest best).map forgetAt := by
  induction visible generalizing best with
  | nil => rfl
  | cons p rest ih => rw [List.map_cons, List.foldl_cons, keepBest_forgetAt, ih, List.foldl_cons]

theorem scopedLocals_forget (model : SourceModel) (pc : UInt32) :
    ({ model with variableSet := { model.variableSet with
        locals := model.variableSet.locals.map (·.forget) } } : SourceModel).scopedLocals pc =
      (model.scopedLocals pc).map forgetAt := by
  have indexed : (model.variableSet.locals.map (·.forget)).mapIdx (fun i l => (i, l)) =
      (model.variableSet.locals.mapIdx fun i l => (i, l)).map forgetAt := by
    refine List.ext_getElem (by simp) ?_
    simp [forgetAt]
  have sorted := List.map_mergeSort (f := forgetAt) (l := model.bestLocals pc)
    (r := fun a b => decide (a.1 ≤ b.1)) (s := fun a b => decide (a.1 ≤ b.1)) fun _ _ _ _ => rfl
  rw [scopedLocals, scopedLocals, sorted, bestLocals, bestLocals]
  congr 1
  -- visibility and rank look at names, ranges and functions alone
  refine Eq.trans ?_ (foldl_keepBest_forgetAt [] (model.visibleLocals pc))
  simp only [visibleLocals, indexed, List.filter_map, Function.comp_def]
  rfl

theorem scopedLocals_congr {a b : SourceModel} (functions : a.functions = b.functions)
    (same : SameLocals a.variableSet.locals b.variableSet.locals) (pc : UInt32) :
    (a.scopedLocals pc).map forgetAt = (b.scopedLocals pc).map forgetAt := by
  rw [← scopedLocals_forget, ← scopedLocals_forget]
  simp only [SameLocals] at same
  simp only [scopedLocals, bestLocals, visibleLocals, isVisible, functionOf?, functions, same]

theorem scopeAt_congr {a b : SourceModel} (functions : a.functions = b.functions)
    (same : SameLocals a.variableSet.locals b.variableSet.locals) (pc : UInt32) :
    a.scopeAt pc = b.scopeAt pc := by
  have indices (model : SourceModel) :
      model.scopeAt pc = ((model.scopedLocals pc).map forgetAt).map (·.1) := by
    rw [List.map_map]
    rfl
  rw [indices a, indices b, scopedLocals_congr functions same pc]

theorem updateLocal_congr {a b : SourceModel} (functions : a.functions = b.functions)
    (env : Environment) {l m : LocalVariable} (same : l.forget = m.forget) :
    a.updateLocal env l = b.updateLocal env m := by
  obtain ⟨v, range, function⟩ := l
  obtain ⟨w, range', function'⟩ := m
  simp only [LocalVariable.forget, LocalVariable.mk.injEq] at same
  obtain ⟨same, rfl, rfl⟩ := same
  simp only [updateLocal, functionOf?, functions, Variable.update_congr _ same]

end SourceModel

end SourceScope
