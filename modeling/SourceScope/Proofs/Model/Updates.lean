import Mathlib
import SourceScope.Model.Profile
import SourceScope.Proofs.Model.Build
import SourceScope.Proofs.Model.Scope

set_option autoImplicit false

namespace SourceScope

namespace SourceModel

inductive Call where
  | updateGlobals (state : Coprocessor)
  | updateLocals (state : Coprocessor)
  | record (address : UInt32) (cycles : UInt64)
  | resetCounters

def call (model : SourceModel) : Call → SourceModel
  | .updateGlobals state => model.updateGlobals state
  | .updateLocals state => model.updateLocals state
  | .record address cycles => model.record address cycles
  | .resetCounters => model.resetCounters

def run (model : SourceModel) (calls : List Call) : SourceModel := calls.foldl call model

structure Latest where
  globals : Option Coprocessor
  locals : Option Coprocessor

namespace Latest

def start : Latest := ⟨none, none⟩

def after (latest : Latest) : Call → Latest
  | .updateGlobals state => { latest with globals := some state }
  | .updateLocals state => { latest with locals := some state }
  | .record _ _ | .resetCounters => latest

def of (calls : List Call) : Latest := calls.foldl after start

end Latest

def Idle (v : Variable) : Prop := ∀ r ∈ v.resolutions, r = .pending ∨ r = .outOfScope

-- How a model that was run compares to what it was at first.
structure Follows (initial : SourceModel) (latest : Latest) (model : SourceModel) : Prop where
  settings : model.settings = initial.settings
  functions : model.functions = initial.functions
  frame : model.frame = initial.frame
  same : SameLocals model.variableSet.locals initial.variableSet.locals
  globals : model.variableSet.globals =
    match latest.globals with
    | none => initial.variableSet.globals
    | some state => initial.variableSet.globals.map (·.update (initial.environment state))
  active : model.activeLocals =
    match latest.locals with
    | none => []
    | some state => initial.scopeAt (initial.environment state).pc
  evaluated : ∀ state, latest.locals = some state → ∀ i ∈ model.activeLocals,
    model.variableSet.locals[i]? =
      (initial.variableSet.locals[i]?).map (initial.updateLocal (initial.environment state))
  idle : ∀ (i : Nat) (l : LocalVariable), model.variableSet.locals[i]? = some l →
    i ∉ model.activeLocals → Idle l.variable_

theorem Follows.environment {initial model : SourceModel} {latest : Latest}
    (follows : initial.Follows latest model) (state : Coprocessor) :
    model.environment state = initial.environment state := by
  simp only [SourceModel.environment, follows.settings, follows.frame]

theorem Follows.start {initial : SourceModel} (fresh : initial.variableSet.Fresh)
    (inactive : initial.activeLocals = []) : initial.Follows .start initial := by
  refine ⟨rfl, rfl, rfl, rfl, rfl, inactive, ?_, ?_⟩
  · rintro state ⟨⟩
  · intro i l found _ r member
    exact .inl ((fresh.locals l (List.mem_of_getElem? found)).resolutions r member)

theorem Follows.counted {initial model : SourceModel} {latest : Latest}
    (follows : initial.Follows latest model) (listing : Listing) (counters : Array Counter) :
    initial.Follows latest { model with listing, functionCounters := counters } :=
  ⟨follows.settings, follows.functions, follows.frame, follows.same, follows.globals,
    follows.active, follows.evaluated, follows.idle⟩

theorem Follows.updateGlobals {initial model : SourceModel} {latest : Latest}
    (follows : initial.Follows latest model) (state : Coprocessor) :
    initial.Follows { latest with globals := some state } (model.updateGlobals state) := by
  refine ⟨follows.settings, follows.functions, follows.frame, follows.same, ?_, follows.active,
    follows.evaluated, follows.idle⟩
  simp only [SourceModel.updateGlobals, follows.environment, follows.globals]
  -- an earlier update leaves no trace in a later one
  cases latest.globals with
  | none => rfl
  | some earlier =>
    rw [List.map_map]
    refine List.map_congr_left fun v _ => ?_
    exact Variable.update_congr _ (Variable.forget_update _ v)

theorem getElem?_updateLocals (model : SourceModel) (state : Coprocessor) (i : Nat) :
    (model.updateLocals state).variableSet.locals[i]? =
      (model.variableSet.locals[i]?).map fun l =>
        if i ∈ model.scopeAt (model.environment state).pc then
          model.updateLocal (model.environment state) l
        else if i ∈ model.activeLocals then { l with variable_ := l.variable_.markOutOfScope }
        else l := by
  simp only [updateLocals, scopeAt, List.getElem?_mapIdx, List.contains_iff_mem]
  congr

theorem updateLocals_same (model : SourceModel) (state : Coprocessor) :
    SameLocals (model.updateLocals state).variableSet.locals model.variableSet.locals := by
  refine List.ext_getElem? fun i => ?_
  rw [List.getElem?_map, List.getElem?_map, getElem?_updateLocals, Option.map_map]
  refine Option.map_congr fun l _ => ?_
  simp only [Function.comp_apply]
  -- evaluated, marked or left alone
  split
  · simp [updateLocal, LocalVariable.forget]
  split
  · simp [LocalVariable.forget, Variable.forget_markOutOfScope]
  · rfl

theorem Follows.scopeAt {initial model : SourceModel} {latest : Latest}
    (follows : initial.Follows latest model) (pc : UInt32) :
    model.scopeAt pc = initial.scopeAt pc :=
  scopeAt_congr follows.functions follows.same pc

theorem Follows.updateLocals {initial model : SourceModel} {latest : Latest}
    (follows : initial.Follows latest model) (state : Coprocessor) :
    initial.Follows { latest with locals := some state } (model.updateLocals state) := by
  have env := follows.environment state
  have active : (model.updateLocals state).activeLocals =
      initial.scopeAt (initial.environment state).pc := by
    rw [← env, ← follows.scopeAt]
    rfl
  refine ⟨follows.settings, follows.functions, follows.frame,
    (updateLocals_same model state).trans follows.same, follows.globals, active, ?_, ?_⟩
  · -- a local in scope is evaluated from what it was at first, whatever it was before the call
    rintro _ ⟨⟩ i member
    rw [active] at member
    simp only [getElem?_updateLocals, env, follows.scopeAt, member, if_true]
    have same := congrArg (·[i]?) follows.same
    simp only [List.getElem?_map] at same
    cases before : model.variableSet.locals[i]? <;>
      cases start : initial.variableSet.locals[i]? <;> simp [before, start] at same ⊢
    exact updateLocal_congr follows.functions _ same
  · -- a local that leaves the scope is marked; any other was idle before the call
    intro i l found outside
    rw [active] at outside
    simp only [getElem?_updateLocals, env, follows.scopeAt, outside, if_false,
      Option.map_eq_some_iff] at found
    obtain ⟨before, found, rfl⟩ := found
    split
    · exact fun r member => .inr (Variable.resolutions_markOutOfScope _ r member)
    next inactive => exact follows.idle i before found inactive

theorem Follows.call {initial model : SourceModel} {latest : Latest}
    (follows : initial.Follows latest model) (c : Call) :
    initial.Follows (latest.after c) (model.call c) := by
  cases c with
  | updateGlobals state => exact follows.updateGlobals state
  | updateLocals state => exact follows.updateLocals state
  | record address cycles =>
    simp only [SourceModel.call, Latest.after, SourceModel.record]
    split
    · exact follows
    split
    · exact follows
    · exact follows.counted _ _
  | resetCounters => exact follows.counted _ _

theorem Follows.foldl {initial model : SourceModel} {latest : Latest}
    (follows : initial.Follows latest model) (calls : List Call) :
    initial.Follows (calls.foldl Latest.after latest) (calls.foldl SourceModel.call model) := by
  induction calls generalizing model latest with
  | nil => exact follows
  | cons c rest ih => exact ih (follows.call c)

/-- What the variables of a model are after a run, as its latest updates say. -/
structure UpToDate (initial : SourceModel) (latest : Latest) (model : SourceModel) : Prop where
  ascending : model.activeLocals.Pairwise (· < ·)
  inactive : latest.locals = none → model.activeLocals = []
  active : ∀ state, latest.locals = some state →
    model.activeLocals = initial.scopeAt (initial.environment state).pc
  result : ∀ state, latest.locals = some state →
    model.active = (initial.inScope (initial.environment state).pc).map
      (initial.updateLocal (initial.environment state))
  evaluated : ∀ state, latest.locals = some state → ∀ i ∈ model.activeLocals,
    ∃ l, initial.variableSet.locals[i]? = some l ∧
      model.variableSet.locals[i]? = some (initial.updateLocal (initial.environment state) l)
  idle : ∀ (i : Nat) (l : LocalVariable), model.variableSet.locals[i]? = some l →
    i ∉ model.activeLocals → Idle l.variable_
  pending : latest.globals = none →
    ∀ v ∈ model.variableSet.globals, ∀ r ∈ v.resolutions, r = .pending
  globals : ∀ state, latest.globals = some state →
    model.variableSet.globals =
      initial.variableSet.globals.map (·.update (initial.environment state))
  same : SameLocals model.variableSet.locals initial.variableSet.locals

theorem Follows.result {initial model : SourceModel} {latest : Latest}
    (follows : initial.Follows latest model) {state : Coprocessor}
    (evaluated : latest.locals = some state) :
    model.active = (initial.inScope (initial.environment state).pc).map
      (initial.updateLocal (initial.environment state)) := by
  have indices := follows.active
  rw [evaluated] at indices
  rw [SourceModel.active, List.filterMap_congr (follows.evaluated state evaluated)]
  simp only [indices, SourceModel.scopeAt, inScope, List.filterMap_map, List.map_map]
  rw [← List.filterMap_eq_map]
  refine List.filterMap_congr fun p member => ?_
  simp [getElem?_scopedLocals member]

theorem Follows.upToDate {initial model : SourceModel} {latest : Latest}
    (follows : initial.Follows latest model) (fresh : initial.variableSet.Fresh) :
    initial.UpToDate latest model := by
  have active (state : Coprocessor) (evaluated : latest.locals = some state) :
      model.activeLocals = initial.scopeAt (initial.environment state).pc := by
    rw [follows.active, evaluated]
  refine ⟨?_, ?_, active, fun state => follows.result, ?_, follows.idle, ?_, ?_, follows.same⟩
  · rw [follows.active]
    split
    · exact List.Pairwise.nil
    · exact scopeAt_ascending _ _
  · intro none
    rw [follows.active, none]
  · intro state evaluated i member
    have inside : i ∈ initial.scopeAt _ := active state evaluated ▸ member
    have found := List.getElem?_eq_getElem (scopeAt_lt inside)
    exact ⟨_, found, by rw [follows.evaluated state evaluated i member, found, Option.map_some]⟩
  · intro none v member
    rw [follows.globals, none] at member
    exact (fresh.globals v member).resolutions
  · intro state evaluated
    rw [follows.globals, evaluated]

/-- Whatever calls a model gets in whatever order, its variables are as the latest updates say. -/
theorem run_upToDate {settings : Settings} {files : FileSystem} {disassemble : Disassembler}
    {binary : Binary} {initial : SourceModel}
    (built : build settings files disassemble binary = .ok initial) (calls : List Call) :
    initial.UpToDate (Latest.of calls) (initial.run calls) := by
  obtain ⟨fresh, inactive⟩ := build_fresh built
  exact ((Follows.start fresh inactive).foldl calls).upToDate fresh

open Sample in
def oneLocal : Binary :=
  code 0x100 (nops 2) [function "f" 0x100 4] <| debug (localKinds expressionForm)
    (unitWithInt <| variable_ 3 "g" (expression [3, 0, 0, 0, 0x20]) ++
      functionAt 0x100 4 (variable_ 3 "x" (expression [0x70, 0]) ++ [0])) []

def stoppedAt (address : UInt32) : Coprocessor := ⟨some, fun _ => some address⟩

set_option maxRecDepth 20000 in
theorem oneLocal_active :
    (build .default noFiles Opcode.sweep oneLocal).toOption.map (fun initial =>
      ((initial.run [.updateLocals (stoppedAt 0x100)]).activeLocals,
        (initial.run [.updateLocals (stoppedAt 0x100), .updateGlobals (stoppedAt 0),
          .updateLocals (stoppedAt 0)]).activeLocals)) = some ([0], []) := by
  cbv

theorem run_upToDate_oneLocal :
    ∃ initial, build .default noFiles Opcode.sweep oneLocal = .ok initial ∧
      (initial.run [.updateLocals (stoppedAt 0x100)]).activeLocals = [0] ∧
      (initial.run [.updateLocals (stoppedAt 0x100), .updateGlobals (stoppedAt 0),
        .updateLocals (stoppedAt 0)]).activeLocals = [] ∧
      initial.UpToDate ⟨some (stoppedAt 0), some (stoppedAt 0)⟩
        (initial.run [.updateLocals (stoppedAt 0x100), .updateGlobals (stoppedAt 0),
          .updateLocals (stoppedAt 0)]) := by
  obtain ⟨initial, built, active⟩ := exists_ok oneLocal_active
  obtain ⟨entered, left⟩ := Prod.mk.inj active
  exact ⟨initial, built, entered, left, run_upToDate built [.updateLocals (stoppedAt 0x100),
    .updateGlobals (stoppedAt 0), .updateLocals (stoppedAt 0)]⟩

end SourceModel

end SourceScope
