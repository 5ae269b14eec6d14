import SourceScope.Frame.Section
import SourceScope.Location.Operation

set_option autoImplicit false

namespace SourceScope

inductive LocationError where
  | unsupported (what : Location.Unsupported)
  | stackUnderflow
  | noFrameBase
  | noFrameSection
  | registerUnavailable (register : UInt16)
  | memoryUnavailable (address : UInt32)
  | noEntryFor (pc : UInt32)
  | malformed (cause : ReadError)
  | frame (cause : FrameError)
  | divisionByZero
  | badBranch
deriving DecidableEq, Repr

namespace LocationError

def message : LocationError → String
  | unsupported what => "unsupported operation " ++ what.described
  | stackUnderflow => "expression stack underflow"
  | noFrameBase => "no frame base for DW_OP_fbreg"
  | noFrameSection => "no call frame information for DW_OP_call_frame_cfa"
  | registerUnavailable register => s!"register r{register} unavailable"
  | memoryUnavailable address => "memory at " ++ Hex.address address ++ " unavailable"
  | noEntryFor pc => "no location for pc " ++ Hex.address pc
  | malformed cause => "malformed location: " ++ cause.message
  | frame cause => "unwinding failed: " ++ cause.message
  | divisionByZero => "division by zero"
  | badBranch => "bad branch target"

end LocationError

namespace Location

structure Placed where
  offset : Nat
  operation : Operation
deriving DecidableEq, Repr

structure Expression where
  placed : List Placed
  -- Length of the encoded expression.
  length : Nat
deriving DecidableEq, Repr, Inhabited

namespace Expression

def operations (e : Expression) : List Operation := e.placed.map (·.operation)

def sweep (offset : Nat) (bytes : List UInt8) : Except LocationError (List Placed) :=
  if bytes.isEmpty then .ok []
  else
    match Operation.reader bytes with
    | .error e => .error (.malformed e)
    | .ok (.error what, _) => .error (.unsupported what)
    | .ok (.ok operation, rest) =>
      -- every operation has an opcode
      if _ : rest.length < bytes.length then
        match sweep (offset + (bytes.length - rest.length)) rest with
        | .error e => .error e
        | .ok later => .ok (⟨offset, operation⟩ :: later)
      else .error (.malformed .unexpectedEnd)
termination_by bytes.length

def decode (bytes : List UInt8) : Except LocationError Expression :=
  match sweep 0 bytes with
  | .error e => .error e
  | .ok placed => .ok ⟨placed, bytes.length⟩

def ofOperations (operations : List Operation) : Expression :=
  ⟨operations.mapIdx fun i operation => ⟨i, operation⟩, operations.length⟩

def memberOffset? (e : Expression) : Option UInt32 :=
  match e.operations with
  | [.plusConst offset] => some offset
  | [.const offset, .binary .plus] => some offset
  | _ => none

end Expression

end Location

end SourceScope
