import SourceScope.Proofs.Location.Arithmetic
import SourceScope.Proofs.Model.Shadowing
import SourceScope.Proofs.Variable.Width

set_option autoImplicit false

namespace SourceScope

namespace Location

theorem evaluate_frameOffset {e : Expression} {k : Int32} (single : e.operations = [.frameOffset k])
    (s : Surroundings) :
    e.evaluate s = s.frameBase.map fun base => .address (base + k.toUInt32) := by
  have pushes : Pushes e s [.frameOffset k] (s.frameBase.map (· + k.toUInt32)) := by
    refine .leaf fun m => ?_
    rw [Machine.step]
    cases s.frameBase <;> rfl
  have ran := pushes ⟨0, [], none, []⟩ [] 4095 single
  have ended : e.operations.drop 1 = [] := by rw [single]; rfl
  rw [Expression.evaluate, Expression.evaluateFrom, maxSteps]
  rw [List.length_singleton] at ran
  rw [ran]
  cases s.frameBase with
  | error cause => rfl
  | ok base =>
    simp only [Except.map, Except.bind]
    rw [run_ended ended]
    rfl

def Result.base : Result → Except LocationError UInt32
  | .address word | .value word => .ok word
  | .pieces _ => .error (.unsupported .splitFrameBase)

end Location

namespace Environment

open Location

theorem frameBaseValue_eq (env : Environment) : env.frameBaseValue =
    match env.frameBase with
    | none => .error .noFrameBase
    | some location => (location.evaluate { env with frameBase := none }).bind Result.base := by
  have unbased : ({ env with frameBase := none } : Environment).surroundings = env.bare := rfl
  rw [frameBaseValue]
  cases env.frameBase with
  | none => rfl
  | some location =>
    simp only [Location.evaluate, unbased, bind, Except.bind, pure, Except.pure]
    cases location.expressionAt env.pc with
    | error cause => rfl
    | ok e =>
      simp only
      cases e.evaluate env.bare with
      | error cause => rfl
      | ok found => cases found <;> rfl

end Environment

namespace SourceModel

variable {model : SourceModel} {state : Coprocessor} {pc : UInt32}

theorem environment_of_running (running : state.register model.settings.pcRegister = some pc) :
    model.environment state = ⟨state, pc, model.frame, none⟩ := by
  rw [environment, running, Option.getD_some]

theorem frameBase_eq (running : state.register model.settings.pcRegister = some pc) :
    model.frameBase state =
      match (model.functionAt? pc).bind (·.frameBaseAt? pc) with
      | none => .error .noFrameBase
      | some location =>
        (location.evaluate (model.environment state)).bind Location.Result.base := by
  rw [environment_of_running running]
  simp only [frameBase, running]
  exact Environment.frameBaseValue_eq _

theorem frameBaseValue_of_running
    (running : state.register model.settings.pcRegister = some pc) {l : LocalVariable}
    (executing : model.functionOf? l = model.functionAt? pc) :
    Environment.frameBaseValue ⟨state, pc, model.frame,
      (model.functionOf? l).bind (·.frameBaseAt? pc)⟩ = model.frameBase state := by
  rw [frameBase_eq running, Environment.frameBaseValue_eq, executing,
    environment_of_running running]

theorem resolution_updateLocal (running : state.register model.settings.pcRegister = some pc)
    {l : LocalVariable} (executing : model.functionOf? l = model.functionAt? pc)
    {e : Location.Expression} {k : Int32} (placed : l.variable_.place = .located (.expression e))
    (single : e.operations = [.frameOffset k]) :
    (model.updateLocal (model.environment state) l).variable_.resolution =
      Variable.resolutionOf (model.environment state) l.variable_.size
        (Variable.ofEvaluation
          ((model.frameBase state).map fun base => .address (base + k.toUInt32))) := by
  have seen := frameBaseValue_of_running running executing
  simp only [updateLocal, environment_of_running running]
  rw [Variable.resolution_update placed]
  simp only [Location.evaluate, Location.expressionAt, bind, Except.bind,
    Location.evaluate_frameOffset single, Environment.surroundings, seen]
  rfl

/-- After an update a local at an offset from the frame base of the function that runs is resolved
there if the model gives a frame base, and not resolved if it gives none. -/
theorem updateLocals_frameOffset (model : SourceModel) (state : Coprocessor) {pc : UInt32}
    (running : state.register model.settings.pcRegister = some pc) {i : Nat} {l : LocalVariable}
    (inScope : i ∈ model.scopeAt pc) (listed : model.variableSet.locals[i]? = some l)
    (executing : model.functionOf? l = model.functionAt? pc) {e : Location.Expression} {k : Int32}
    (placed : l.variable_.place = .located (.expression e))
    (single : e.operations = [.frameOffset k]) :
    ∃ m, (model.updateLocals state).variableSet.locals[i]? = some m ∧ m.forget = l.forget ∧
      (∀ base, model.frameBase state = .ok base → m.variable_.resolution =
        .resolved (some (base + k.toUInt32))
          ((state.peek (base + k.toUInt32)).map (Location.lowBytes l.variable_.size.toNat))) ∧
      ∀ cause, model.frameBase state = .error cause →
        m.variable_.resolution = Variable.failure cause ∧
          ∀ address value, m.variable_.resolution ≠ .resolved address value := by
  have member : i ∈ model.scopeAt (model.environment state).pc := by
    rwa [environment_of_running running]
  have resolution := resolution_updateLocal running executing placed single
  refine ⟨model.updateLocal (model.environment state) l, ?_, ?_, ?_, ?_⟩
  · rw [getElem?_updateLocals, listed, Option.map_some, if_pos member]
  · simp [updateLocal, LocalVariable.forget]
  · intro base found
    rw [resolution, found]
    rfl
  · intro cause failed
    have published : (model.updateLocal (model.environment state) l).variable_.resolution =
        Variable.failure cause := by
      rw [resolution, failed]
      rfl
    exact ⟨published, fun address value => published ▸ Variable.failure_ne_resolved cause _ _⟩

def countingAt (address : UInt32) : Coprocessor :=
  ⟨some, fun number => if number = 15 then some address else none⟩

set_option maxRecDepth 20000 in
theorem shadowing_running :
    (build .default noFiles Opcode.sweep shadowing).toOption.map (fun model =>
      (model.settings.pcRegister, model.scopeAt 0x102,
        (model.variableSet.locals[1]?).map (fun l =>
          (decide (model.functionOf? l = model.functionAt? 0x102), l.variable_.size,
            l.variable_.place)),
        (model.frameBase (stoppedAt 0x102)).toOption,
        (model.frameBase (countingAt 0x102)).toOption)) =
      some (15, [0, 1, 5],
        some (true, 4, .located (.expression ⟨[⟨0, .frameOffset 8⟩], 2⟩)), some 0x102, none) := by
  cbv

theorem updateLocals_frameOffset_shadowing :
    ∃ model, build .default noFiles Opcode.sweep shadowing = .ok model ∧
      model.frameBase (stoppedAt 0x102) = .ok 0x102 ∧
      (∃ m, (model.updateLocals (stoppedAt 0x102)).variableSet.locals[1]? = some m ∧
        m.variable_.resolution = .resolved (some 0x10a) (some 0x10a)) ∧
      ∃ m, (model.updateLocals (countingAt 0x102)).variableSet.locals[1]? = some m ∧
        ∀ address value, m.variable_.resolution ≠ .resolved address value := by
  obtain ⟨model, built, facts⟩ := exists_ok shadowing_running
  simp only [Prod.mk.injEq, toOption_eq_some_iff] at facts
  obtain ⟨counter, scopeAt, declared, found, absent⟩ := facts
  obtain ⟨l, listed, facts⟩ := Option.map_eq_some_iff.1 declared
  simp only [Prod.mk.injEq, decide_eq_true_eq] at facts
  obtain ⟨executing, size, placed⟩ := facts
  have inScope : 1 ∈ model.scopeAt 0x102 := by simp [scopeAt]
  obtain ⟨cause, failed⟩ : ∃ cause, model.frameBase (countingAt 0x102) = .error cause := by
    cases given : model.frameBase (countingAt 0x102) with
    | error cause => exact ⟨cause, rfl⟩
    | ok base => rw [given] at absent; cases absent
  obtain ⟨m, updated, -, resolved, -⟩ := updateLocals_frameOffset model (stoppedAt 0x102) rfl
    inScope listed executing placed rfl
  obtain ⟨n, updated', -, -, unresolved⟩ := updateLocals_frameOffset model (countingAt 0x102)
    (by rw [counter]; rfl) inScope listed executing placed rfl
  refine ⟨model, built, found, ⟨m, updated, ?_⟩, n, updated', (unresolved cause failed).2⟩
  rw [resolved _ found, size]
  rfl

end SourceModel

end SourceScope
