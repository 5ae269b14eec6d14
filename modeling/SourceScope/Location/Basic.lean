import SourceScope.Location.Evaluation

set_option autoImplicit false

namespace SourceScope

namespace Location

structure Entry where
  start : UInt32
  stop : UInt32
  expression : Expression
deriving DecidableEq, Repr

def Entry.contains (entry : Entry) (pc : UInt32) : Bool := entry.start ≤ pc && pc < entry.stop

end Location

inductive Location where
  | expression (expression : Location.Expression)
  | list (entries : List Location.Entry)
deriving DecidableEq, Repr

structure Environment where
  state : Coprocessor
  pc : UInt32
  frame : Option FrameSection
  -- Frame base of the enclosing function.
  frameBase : Option Location

namespace Location

def expressionAt (location : Location) (pc : UInt32) : Except LocationError Expression :=
  match location with
  | .expression e => .ok e
  | .list entries =>
    match entries.find? (·.contains pc) with
    | some entry => .ok entry.expression
    | none => .error (.noEntryFor pc)

end Location

namespace Environment

open Location

def callFrameAddress (env : Environment) : Except LocationError UInt32 :=
  match env.frame with
  | none => .error .noFrameSection
  | some table => (table.frameAddress env.state env.pc).mapError .frame

def bare (env : Environment) : Surroundings := ⟨env.state, .error .noFrameBase, env.callFrameAddress⟩

def frameBaseValue (env : Environment) : Except LocationError UInt32 := do
  let some location := env.frameBase | throw .noFrameBase
  match ← (← location.expressionAt env.pc).evaluate env.bare with
  | .address address => return address
  | .value value => return value
  | .pieces _ => throw (.unsupported .splitFrameBase)

def surroundings (env : Environment) : Surroundings :=
  ⟨env.state, env.frameBaseValue, env.callFrameAddress⟩

end Environment

namespace Location

def evaluate (location : Location) (env : Environment) : Except LocationError Result := do
  (← location.expressionAt env.pc).evaluate env.surroundings

end Location

end SourceScope
