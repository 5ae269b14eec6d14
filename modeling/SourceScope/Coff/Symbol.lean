import SourceScope.Coff.Section

set_option autoImplicit false

namespace SourceScope

namespace Coff

structure SymbolRecord where
  -- Eight bytes.
  name : List UInt8
  value : Nat
  -- None if the symbol is defined in no section.
  home : Option Nat
  type : Nat
  storageClass : UInt8
  moreCount : Nat
deriving DecidableEq, Repr

namespace StorageClass

def external : UInt8 := 2
def internal : UInt8 := 3
def weak : UInt8 := 105

end StorageClass

namespace SymbolRecord

def homeOf (limit number : Nat) : Option Nat :=
  if 0 < number ∧ number < limit then some number else none

def reader (isBig : Bool) : Reader SymbolRecord := do
  let name ← Reader.take 8
  let value ← words.word
  let home ←
    if isBig then homeOf 0x80000000 <$> words.word else homeOf 0xfeff <$> words.half
  let type ← words.half
  let storageClass ← Reader.byte
  let moreCount ← Reader.byte
  return ⟨name, value, home, type, storageClass, moreCount.toNat⟩

def byteCount (isBig : Bool) : Nat := if isBig then 20 else 18

end SymbolRecord

structure Symbol where
  record : SymbolRecord
  more : Option (List UInt8)
deriving DecidableEq, Repr

namespace Symbol

def isFunction (s : Symbol) : Bool := s.record.type / 16 % 4 == 2

def derivedKind (s : Symbol) : SymbolKind := if s.isFunction then .code else .data

def kind (s : Symbol) : SymbolKind :=
  if s.record.storageClass = StorageClass.internal then
    if s.record.value = 0 ∧ 0 < s.record.moreCount then .other else s.derivedKind
  else if s.record.storageClass = StorageClass.external ∨ s.record.storageClass = StorageClass.weak then
    s.derivedKind
  else .other

def moreWord (s : Symbol) (offset : Nat) : Nat :=
  match s.more with
  | none => 0
  | some record => words.order.value ((record.drop offset).take 4)

def size (s : Symbol) : Nat :=
  if s.record.moreCount = 0 then 0
  else if s.record.storageClass = StorageClass.internal then
    if s.record.type = 0 then s.moreWord 0 else 0
  else if s.record.storageClass = StorageClass.external then
    if s.isFunction then s.moreWord 4 else 0
  else 0

def name? (strings : List UInt8) (s : Symbol) : Option (List UInt8) :=
  if s.record.name.head? = some 0 then
    textAt? strings (words.order.value (s.record.name.drop 4))
  else some (fieldText s.record.name)

def ofRecords (isBig : Bool) : List (List UInt8) → List Symbol
  | [] => []
  | bytes :: rest =>
    match (SymbolRecord.reader isBig).read bytes with
    | .error _ => []
    | .ok record => ⟨record, rest.head?⟩ :: ofRecords isBig (rest.drop record.moreCount)
termination_by records => records.length
decreasing_by simp only [List.length_drop, List.length_cons]; omega

end Symbol

structure SymbolTable where
  symbols : List Symbol
  strings : List UInt8
deriving Repr

namespace SymbolTable

def empty : SymbolTable := ⟨[], []⟩

def read (h : Header) (data : List UInt8) : Except CoffError SymbolTable := do
  if h.symbolOffset = 0 then return empty
  let size := SymbolRecord.byteCount h.isBig
  let some records := table? data (Reader.take size) size h.symbolOffset h.symbolCount
    | throw .symbolTable
  let some strings := sizedStrings? words.order data (h.symbolOffset + size * h.symbolCount)
    | throw .noStrings
  return ⟨Symbol.ofRecords h.isBig records, strings⟩

end SymbolTable

end Coff

end SourceScope
