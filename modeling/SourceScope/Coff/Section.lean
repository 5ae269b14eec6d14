import SourceScope.Coff.Header
import SourceScope.Image.Basic

set_option autoImplicit false

namespace SourceScope

namespace Coff

structure SectionHeader where
  -- Eight bytes.
  name : List UInt8
  loadedSize : Nat
  address : Nat
  size : Nat
  offset : Nat
  flags : Nat
deriving DecidableEq, Repr

namespace SectionFlag

def code : Nat := 5
def uninitialized : Nat := 7
def executable : Nat := 29

end SectionFlag

namespace SectionHeader

def reader : Reader SectionHeader := do
  let name ← Reader.take 8
  let loadedSize ← words.word
  let address ← words.word
  let size ← words.word
  let offset ← words.word
  let _relocations ← words.word
  let _lines ← words.word
  let _counts ← words.word
  let flags ← words.word
  return ⟨name, loadedSize, address, size, offset, flags⟩

def byteCount : Nat := 40

def isCode (h : SectionHeader) : Bool :=
  h.flags.testBit SectionFlag.code || h.flags.testBit SectionFlag.executable

def storage (h : SectionHeader) : Storage :=
  if h.flags.testBit SectionFlag.uninitialized then .absent
  else .place h.offset h.size .coffOutsideFile

def loadedStorage (h : SectionHeader) : Storage :=
  .place h.offset (min h.loadedSize h.size) .executableOutsideFile

end SectionHeader

def decimalDigit? (b : UInt8) : Option Nat :=
  if 0x30 ≤ b ∧ b ≤ 0x39 then some (b.toNat - 0x30) else none

def digit64? (b : UInt8) : Option Nat :=
  if 0x41 ≤ b ∧ b ≤ 0x5a then some (b.toNat - 0x41)
  else if 0x61 ≤ b ∧ b ≤ 0x7a then some (b.toNat - 0x61 + 26)
  else if 0x30 ≤ b ∧ b ≤ 0x39 then some (b.toNat - 0x30 + 52)
  else if b = 0x2b then some 62
  else if b = 0x2f then some 63
  else none

def number? (base : Nat) (digit? : UInt8 → Option Nat) (digits : List UInt8) : Option Nat :=
  digits.foldlM (fun n b => (digit? b).map (n * base + ·)) 0

def offset64? (digits : List UInt8) : Option Nat :=
  (number? 64 digit64? digits).bind fun n => if n < UInt32.size then some n else none

def sectionName? (strings : List UInt8) : List UInt8 → Option (List UInt8)
  | 0x2f :: 0x2f :: digits => (offset64? digits).bind (textAt? strings)
  | 0x2f :: digits => (number? 10 decimalDigit? (fieldText digits)).bind (textAt? strings)
  | field => some (fieldText field)

end Coff

end SourceScope
