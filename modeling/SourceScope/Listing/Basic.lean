import SourceScope.Function.Set
import SourceScope.Machine.Opcode
import SourceScope.Order.PartitionPoint

set_option autoImplicit false

namespace SourceScope

abbrev FileId := Nat

abbrev LineId := Nat

structure Counter where
  executions : UInt64
  cycles : UInt64
deriving DecidableEq, Repr, Inhabited

namespace Counter

def zero : Counter := ⟨0, 0⟩

def record (c : Counter) (cycles : UInt64) : Counter := ⟨c.executions + 1, c.cycles + cycles⟩

end Counter

structure Instruction where
  opcode : Opcode
  line : Option LineId
deriving DecidableEq, Repr, Inhabited

def Opcode.covers (o : Opcode) (address : UInt32) : Bool :=
  o.address ≤ address && address - o.address < o.size.toUInt32

structure SourceLine where
  file : FileId
  number : UInt32
  text : String
  -- Addresses of the line's instructions.
  instructions : List UInt32
  function : FunctionId
  -- Whether it stands for code that no line table describes.
  isStub : Bool
  counter : Counter
deriving DecidableEq, Repr, Inhabited

def SourceLine.hasCode (line : SourceLine) : Bool := !line.instructions.isEmpty

structure SourceFile where
  path : String
  -- The path without the directories that all files share.
  shortPath : String
  -- Lines by ascending number.
  lines : List (UInt32 × LineId)
  -- Whether the text of the lines is known.
  isLoaded : Bool
  -- Whether it stands for code that no line table describes.
  isSynthetic : Bool
deriving DecidableEq, Repr, Inhabited

def SourceFile.line? (file : SourceFile) (number : UInt32) : Option LineId :=
  file.lines.lookup number

structure Listing where
  files : Array SourceFile
  lines : Array SourceLine
  -- By ascending address.
  instructions : Array Instruction
deriving Repr

namespace Listing

def instructionIndex? (listing : Listing) (address : UInt32) : Option Nat :=
  match partitionPoint (·.opcode.address ≤ address) listing.instructions with
  | 0 => none
  | index + 1 =>
    match listing.instructions[index]? with
    | some instruction => if instruction.opcode.covers address then some index else none
    | none => none

def instructionAt? (listing : Listing) (address : UInt32) : Option Instruction :=
  (listing.instructionIndex? address).bind fun index => listing.instructions[index]?

def lineIdAt? (listing : Listing) (address : UInt32) : Option LineId :=
  (listing.instructionAt? address).bind (·.line)

def lineAt? (listing : Listing) (address : UInt32) : Option SourceLine :=
  (listing.lineIdAt? address).bind fun id => listing.lines[id]?

end Listing

end SourceScope
