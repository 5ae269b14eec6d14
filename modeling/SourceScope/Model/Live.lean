import SourceScope.Model.Basic

set_option autoImplicit false

namespace SourceScope

namespace SourceModel

def environment (model : SourceModel) (state : Coprocessor) : Environment :=
  ⟨state, (state.register model.settings.pcRegister).getD 0, model.frame, none⟩

def updateGlobals (model : SourceModel) (state : Coprocessor) : SourceModel :=
  let env := model.environment state
  { model with variableSet := { model.variableSet with
      globals := model.variableSet.globals.map (·.update env) } }

def functionOf? (model : SourceModel) (l : LocalVariable) : Option SourceFunction :=
  l.function.bind model.functions.get?

def isVisible (model : SourceModel) (pc : UInt32) (l : LocalVariable) : Bool :=
  l.range.contains pc && (model.functionOf? l).all (·.contains pc)

def visibleLocals (model : SourceModel) (pc : UInt32) : List (Nat × LocalVariable) :=
  (model.variableSet.locals.mapIdx fun i l => (i, l)).filter fun p => model.isVisible pc p.2

/-- The best local of each name after one more was met: a later one has to be smaller. -/
def keepBest (best : List (Nat × LocalVariable)) (p : Nat × LocalVariable) :
    List (Nat × LocalVariable) :=
  if best.any fun b =>
      b.2.variable_.name == p.2.variable_.name && b.2.range.size ≤ p.2.range.size then best
  else p :: best.filter fun b => b.2.variable_.name != p.2.variable_.name

def bestLocals (model : SourceModel) (pc : UInt32) : List (Nat × LocalVariable) :=
  (model.visibleLocals pc).foldl keepBest []

def scopedLocals (model : SourceModel) (pc : UInt32) : List (Nat × LocalVariable) :=
  (model.bestLocals pc).mergeSort fun a b => a.1 ≤ b.1

def inScope (model : SourceModel) (pc : UInt32) : List LocalVariable :=
  (model.scopedLocals pc).map (·.2)

def updateLocal (model : SourceModel) (env : Environment) (l : LocalVariable) : LocalVariable :=
  let frameBase := (model.functionOf? l).bind (·.frameBaseAt? env.pc)
  { l with variable_ := l.variable_.update { env with frameBase } }

/-- Evaluates the locals in scope. Those that were in scope before and no longer are become out of
scope; no other local changes. -/
def updateLocals (model : SourceModel) (state : Coprocessor) : SourceModel :=
  let env := model.environment state
  let active := (model.scopedLocals env.pc).map (·.1)
  let refresh (i : Nat) (l : LocalVariable) : LocalVariable :=
    if active.contains i then model.updateLocal env l
    else if model.activeLocals.contains i then { l with variable_ := l.variable_.markOutOfScope }
    else l
  { model with
    variableSet := { model.variableSet with locals := model.variableSet.locals.mapIdx refresh }
    activeLocals := active }

def active (model : SourceModel) : List LocalVariable :=
  model.activeLocals.filterMap fun i => model.variableSet.locals[i]?

def frameBase (model : SourceModel) (state : Coprocessor) : Except LocationError UInt32 := do
  let some pc := state.register model.settings.pcRegister
    | throw (.registerUnavailable model.settings.pcRegister)
  let frameBase := (model.functionAt? pc).bind (·.frameBaseAt? pc)
  Environment.frameBaseValue ⟨state, pc, model.frame, frameBase⟩

end SourceModel

end SourceScope
