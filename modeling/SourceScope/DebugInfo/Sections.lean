import SourceScope.DebugInfo.Form

set_option autoImplicit false

namespace SourceScope

structure DebugSections where
  order : ByteOrder
  find? : String → Option (List UInt8)

namespace DebugSections

def data (s : DebugSections) (name : String) : List UInt8 := (s.find? name).getD []

def readAt {α : Type} (s : DebugSections) (name : String) (offset : Nat) (reader : Reader α) :
    Except ReadError α :=
  let bytes := s.data name
  if bytes.length < offset then .error .unexpectedEnd else reader.read (bytes.drop offset)

structure Bases where
  strings : Nat
  addresses : Nat
deriving DecidableEq, Repr

def stringBytes (s : DebugSections) (offsetSize : Nat) (bases : Bases) :
    FormValue → Except ReadError (List UInt8)
  | .text bytes => .ok bytes
  | .textAt offset => s.readAt ".debug_str" offset Reader.untilZero
  | .lineTextAt offset => s.readAt ".debug_line_str" offset Reader.untilZero
  | .textIndex index => do
    let offset ← s.readAt ".debug_str_offsets" (bases.strings + index * offsetSize)
      (Reader.natural s.order offsetSize)
    s.readAt ".debug_str" offset Reader.untilZero
  | _ => .error .notAString

def indexedAddress (s : DebugSections) (addressSize : Nat) (bases : Bases) (index : Nat) :
    Except ReadError Nat :=
  s.readAt ".debug_addr" (bases.addresses + index * addressSize)
    (Reader.natural s.order addressSize)

end DebugSections

end SourceScope
