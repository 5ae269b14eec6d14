import SourceScope.Location.Expression
import SourceScope.Frame.Unwind

set_option autoImplicit false

namespace SourceScope.Location

inductive Place where
  | address (address : UInt32)
  | value (value : UInt32)
  | empty
deriving DecidableEq, Repr

structure Piece where
  size : UInt32
  place : Place
deriving DecidableEq, Repr

inductive Result where
  | address (address : UInt32)
  | value (value : UInt32)
  | pieces (pieces : List Piece)
deriving DecidableEq, Repr

structure Surroundings where
  state : Coprocessor
  frameBase : Except LocationError UInt32
  callFrameAddress : Except LocationError UInt32

namespace Surroundings

def register (s : Surroundings) (number : UInt16) : Except LocationError UInt32 :=
  match s.state.register number with
  | some value => .ok value
  | none => .error (.registerUnavailable number)

def peek (s : Surroundings) (address : UInt32) : Except LocationError UInt32 :=
  match s.state.peek address with
  | some value => .ok value
  | none => .error (.memoryUnavailable address)

end Surroundings

/-- The low `size` bytes of a word, for sizes of one and two; the whole word for any other. -/
def lowBytes (size : Nat) (value : UInt32) : UInt32 :=
  match size with
  | 1 => value &&& 0xff
  | 2 => value &&& 0xffff
  | _ => value

def UnaryOperator.apply (operator : UnaryOperator) (a : UInt32) : UInt32 :=
  match operator with
  | .abs => if a.toInt32 < 0 then -a else a
  | .neg => -a
  | .not => ~~~a

def truth (b : Bool) : UInt32 := if b then 1 else 0

def BinaryOperator.apply (operator : BinaryOperator) (a b : UInt32) :
    Except LocationError UInt32 :=
  match operator with
  | .and => .ok (a &&& b)
  | .or => .ok (a ||| b)
  | .xor => .ok (a ^^^ b)
  | .plus => .ok (a + b)
  | .minus => .ok (a - b)
  | .mul => .ok (a * b)
  | .div => if b = 0 then .error .divisionByZero else .ok (a.toInt32 / b.toInt32).toUInt32
  | .mod => if b = 0 then .error .divisionByZero else .ok (a % b)
  | .shl => .ok (if b < 32 then a <<< b else 0)
  | .shr => .ok (if b < 32 then a >>> b else 0)
  | .shra =>
    .ok (if b < 32 then (a.toInt32 >>> b.toInt32).toUInt32
      else if a.toInt32 < 0 then 0xffffffff else 0)
  | .eq => .ok (truth (a == b))
  | .ge => .ok (truth (b.toInt32 ≤ a.toInt32))
  | .gt => .ok (truth (b.toInt32 < a.toInt32))
  | .le => .ok (truth (a.toInt32 ≤ b.toInt32))
  | .lt => .ok (truth (a.toInt32 < b.toInt32))
  | .ne => .ok (truth (a != b))

/-- The machine between two operations. The head of the stack is its top; `value` is set by the
operations that say that the object is not in memory, and taken by the next piece. -/
structure Machine where
  next : Nat
  stack : List UInt32
  value : Option UInt32
  -- The pieces so far, the latest first.
  pieces : List Piece
deriving DecidableEq, Repr

namespace Expression

def offsetAt (e : Expression) (index : Nat) : Nat :=
  match e.placed[index]? with
  | some placed => placed.offset
  | none => e.length

def branchIndex (e : Expression) (next : Nat) (target : Int16) : Except LocationError Nat :=
  let destination := (e.offsetAt next : Int) + target.toInt
  if destination = e.length then .ok e.placed.length
  else
    match e.placed.findIdx? fun placed => (placed.offset : Int) == destination with
    | some index => .ok index
    | none => .error .badBranch

end Expression

namespace Machine

def push (m : Machine) (word : UInt32) : Except LocationError Machine :=
  .ok { m with stack := word :: m.stack }

def takePiece (m : Machine) (size : UInt32) : Machine :=
  let place :=
    match m.value, m.stack with
    | some value, _ => .value value
    | none, address :: _ => .address address
    | none, [] => .empty
  { m with stack := m.stack.tail, value := none, pieces := ⟨size, place⟩ :: m.pieces }

def step (e : Expression) (s : Surroundings) (m : Machine) : Operation →
    Except LocationError Machine
  | .const value => m.push value
  | .register number => do return { m with value := some (← s.register number) }
  | .registerOffset number offset => do m.push ((← s.register number) + offset.toUInt32)
  | .frameOffset offset => do m.push ((← s.frameBase) + offset.toUInt32)
  | .callFrameAddress => do m.push (← s.callFrameAddress)
  | .deref size =>
    match m.stack with
    | address :: rest => do
      return { m with stack := lowBytes size.toNat (← s.peek address) :: rest }
    | [] => .error .stackUnderflow
  | .pick depth =>
    match m.stack[depth.toNat]? with
    | some word => m.push word
    | none => .error .stackUnderflow
  | .drop =>
    match m.stack with
    | _ :: rest => .ok { m with stack := rest }
    | [] => .error .stackUnderflow
  | .swap =>
    match m.stack with
    | a :: b :: rest => .ok { m with stack := b :: a :: rest }
    | _ => .error .stackUnderflow
  | .rot =>
    match m.stack with
    | a :: b :: c :: rest => .ok { m with stack := b :: c :: a :: rest }
    | _ => .error .stackUnderflow
  | .unary operator =>
    match m.stack with
    | a :: rest => .ok { m with stack := operator.apply a :: rest }
    | [] => .error .stackUnderflow
  | .binary operator =>
    match m.stack with
    | b :: a :: rest => do return { m with stack := (← operator.apply a b) :: rest }
    | _ => .error .stackUnderflow
  | .plusConst constant =>
    match m.stack with
    | a :: rest => .ok { m with stack := (a + constant) :: rest }
    | [] => .error .stackUnderflow
  | .branch target =>
    match m.stack with
    | 0 :: rest => .ok { m with stack := rest }
    | _ :: rest => do return { m with stack := rest, next := ← e.branchIndex m.next target }
    | [] => .error .stackUnderflow
  | .skip target => do return { m with next := ← e.branchIndex m.next target }
  | .nop => .ok m
  | .piece size => .ok (m.takePiece size)
  | .stackValue =>
    match m.stack with
    | a :: rest => .ok { m with stack := rest, value := some a }
    | [] => .error .stackUnderflow
  | .implicitValue value => .ok { m with value := some value }

def run (e : Expression) (s : Surroundings) : Nat → Machine → Except LocationError Machine
  | steps, m =>
    match e.placed[m.next]? with
    | none => .ok m
    | some placed =>
      match steps with
      | 0 => .error .badBranch
      | steps + 1 =>
        match step e s { m with next := m.next + 1 } placed.operation with
        | .error cause => .error cause
        | .ok m => run e s steps m

def result (m : Machine) : Except LocationError Result :=
  match m.pieces, m.value, m.stack with
  | _ :: _, _, _ => .ok (.pieces m.pieces.reverse)
  | [], some value, _ => .ok (.value value)
  | [], none, address :: _ => .ok (.address address)
  | [], none, [] => .error .stackUnderflow

end Machine

/-- Bound on the operations of one evaluation; only branches backward can reach it. -/
def maxSteps : Nat := 4096

namespace Expression

def evaluateFrom (e : Expression) (s : Surroundings) (stack : List UInt32) :
    Except LocationError Result := do
  (← Machine.run e s maxSteps ⟨0, stack, none, []⟩).result

def evaluate (e : Expression) (s : Surroundings) : Except LocationError Result :=
  e.evaluateFrom s []

def evaluateAt (e : Expression) (s : Surroundings) (base : UInt32) :
    Except LocationError Result :=
  e.evaluateFrom s [base]

end Expression

end SourceScope.Location
