import SourceScope.Bytes.Order

set_option autoImplicit false

namespace SourceScope

structure Coprocessor where
  peek : UInt32 → Option UInt32
  register : UInt16 → Option UInt32

namespace Coprocessor

def coreRegisters : Nat := 16

end Coprocessor

structure Snapshot where
  registers : List (UInt16 × UInt32)
  memory : List (UInt32 × UInt8)
deriving Repr

namespace Snapshot

def empty : Snapshot := ⟨[], []⟩

def register (state : Snapshot) (number : UInt16) : Option UInt32 :=
  if number.toNat < Coprocessor.coreRegisters then state.registers.lookup number else none

def byteAt (state : Snapshot) (address : UInt32) : Option UInt8 := state.memory.lookup address

def peek (state : Snapshot) (address : UInt32) : Option UInt32 := do
  let a ← state.byteAt address
  let b ← state.byteAt (address + 1)
  let c ← state.byteAt (address + 2)
  let d ← state.byteAt (address + 3)
  return UInt32.ofNat (ByteOrder.leastFirst [a, b, c, d])

def setRegister (state : Snapshot) (number : UInt16) (value : UInt32) : Snapshot :=
  { state with registers := (number, value) :: state.registers }

def writeBytes (state : Snapshot) (address : UInt32) : List UInt8 → Snapshot
  | [] => state
  | b :: rest =>
    writeBytes { state with memory := (address, b) :: state.memory } (address + 1) rest

def writeWord (state : Snapshot) (address : UInt32) (value : UInt32) : Snapshot :=
  state.writeBytes address (ByteOrder.little.bytes32 value)

def view (state : Snapshot) : Coprocessor := ⟨state.peek, state.register⟩

end Snapshot

end SourceScope
