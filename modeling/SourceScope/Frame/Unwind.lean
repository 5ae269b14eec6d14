import SourceScope.Frame.Section
import SourceScope.Machine.State

set_option autoImplicit false

namespace SourceScope

namespace Frame

structure Row where
  location : UInt32
  register : UInt16
  offset : Int64
deriving DecidableEq, Repr

/-- The current row, the row after the initial instructions, and one remembered row. -/
structure Replay where
  current : Row
  start : Row
  remembered : Option Row
deriving DecidableEq, Repr

inductive Step where
  | applied (state : Replay)
  -- The instruction would move past the address sought.
  | reached
deriving DecidableEq, Repr

namespace Replay

def initially (address : UInt32) : Replay :=
  let row : Row := ⟨address, 0, 0⟩
  ⟨row, row, none⟩

def moveTo (state : Replay) (location target : UInt32) : Step :=
  if location > target then .reached
  else .applied { state with current := { state.current with location } }

def setRule (state : Replay) (register : UInt16) (offset : Int64) : Step :=
  .applied { state with current := { state.current with register, offset } }

def step (common : CommonEntry) (target : UInt32) (state : Replay) :
    Instruction → Except FrameError Step
  | .advance units =>
    .ok (state.moveTo (state.current.location + units * common.codeAlign) target)
  | .setLocation address => .ok (state.moveTo address target)
  | .defineAddress register offset => .ok (state.setRule register offset)
  | .defineFactored register units => .ok (state.setRule register (units * common.dataAlign))
  | .defineRegister register => .ok (state.setRule register state.current.offset)
  | .defineOffset offset => .ok (state.setRule state.current.register offset)
  | .defineOffsetFactored units =>
    .ok (state.setRule state.current.register (units * common.dataAlign))
  | .rememberState => .ok (.applied { state with remembered := some state.current })
  | .restoreState =>
    let row := state.remembered.getD state.start
    { state with remembered := none }.setRule row.register row.offset |> .ok
  | .skipped => .ok (.applied state)
  | .unfollowed rule => .error (.notImplemented rule)

def run (order : ByteOrder) (common : CommonEntry) (target : UInt32) (state : Replay)
    (bytes : List UInt8) : Except FrameError (Replay × Bool) :=
  if bytes.isEmpty then .ok (state, true)
  else
    match Instruction.reader order bytes with
    | .error _ => .error .truncated
    | .ok (instruction, rest) =>
      match step common target state instruction with
      | .error e => .error e
      | .ok .reached => .ok (state, false)
      | .ok (.applied next) =>
        -- every instruction has an opcode
        if _ : rest.length < bytes.length then run order common target next rest
        else .error .truncated
termination_by bytes.length

end Replay

end Frame

namespace FrameSection

open SourceScope.Frame

def unwind (table : FrameSection) (pc : UInt32) : Except FrameError Row := do
  let some description := table.covering? pc | throw (.noDescription pc)
  let some common := table.common? description.common
    | throw (.unknownCommonEntry description.common)
  let (initial, complete) ←
    Replay.run table.order common pc (Replay.initially description.start) common.instructions
  if complete then
    let state := { initial with start := initial.current }
    return (← state.run table.order common pc description.instructions).1.current
  else return initial.current

def frameAddress (table : FrameSection) (state : Coprocessor) (pc : UInt32) :
    Except FrameError UInt32 := do
  let row ← table.unwind pc
  let some base := state.register row.register | throw (.registerUnavailable row.register)
  return base + UInt32.ofInt row.offset.toInt

end FrameSection

end SourceScope
