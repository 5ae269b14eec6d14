import SourceScope.Text.Hex

set_option autoImplicit false

namespace SourceScope

structure Opcode where
  address : UInt32
  bits : UInt32
  size : UInt8
  text : String
deriving DecidableEq, Repr, Inhabited

namespace Opcode

def halfword (low high : UInt8) : Nat := low.toNat + 256 * high.toNat

def isWide (first : Nat) : Bool := 0b11101 ≤ first / 2048

def narrow (address : UInt32) (first : Nat) : Opcode :=
  ⟨address, UInt32.ofNat first, 2, Hex.padded 4 first⟩

def wide (address : UInt32) (first second : Nat) : Opcode :=
  ⟨address, UInt32.ofNat (65536 * first + second), 4,
    Hex.padded 4 first ++ " " ++ Hex.padded 4 second⟩

/-- The opcodes of the code loaded at `origin`. A last odd byte is no code, and a wide opcode that
lacks its second halfword is taken as narrow. -/
def sweep (origin : UInt32) : List UInt8 → List Opcode
  | a :: b :: c :: d :: rest =>
    if isWide (halfword a b) then
      wide origin (halfword a b) (halfword c d) :: sweep (origin + 4) rest
    else narrow origin (halfword a b) :: sweep (origin + 2) (c :: d :: rest)
  | a :: b :: _ => [narrow origin (halfword a b)]
  | _ => []

end Opcode

abbrev Disassembler := UInt32 → List UInt8 → List Opcode

end SourceScope
