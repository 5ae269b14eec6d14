import SourceScope.Elf.Symbol

set_option autoImplicit false

namespace SourceScope

namespace Elf

structure RelocationRecord where
  offset : Nat
  type : Nat
  -- Index of the symbol, zero if there is none.
  symbol : Nat
  -- If there is none, the old word of the slot is added.
  addend : Option UInt32
deriving DecidableEq, Repr

namespace RelocationRecord

def absolute : Nat := 2

def reader (e : WordFormat) (hasAddend : Bool) : Reader RelocationRecord := do
  let offset ← e.word
  let info ← e.word
  let addend ← if hasAddend then some <$> Reader.word32 e.order else pure none
  return ⟨offset, info % 256, info / 256, addend⟩

def relocation? (symbols : SymbolTable) (r : RelocationRecord) : Option Relocation :=
  if r.type ≠ absolute then none
  else
    (symbols.symbol? r.symbol).map fun s => ⟨r.offset, symbols.position r.symbol s, r.addend⟩

end RelocationRecord

/-- For each section, the first section with relocations of it, and then the next one; zero if there
is none. A section with relocations belongs to the symbol table it links to. -/
def relocationLinks (symbolSection : Nat) (sections : List Section) :
    Except ElfError (Array Nat) :=
  let numbered := (sections.mapIdx fun i s => (i, s.header)).drop 1
  numbered.foldr (fun (index, h) links => do
    let links ← links
    if (h.type ≠ SectionType.relocations ∧ h.type ≠ SectionType.relocationsWithAddends) ∨
        h.link ≠ symbolSection ∨ h.info = 0 then return links
    if links.size ≤ h.info then throw .relocatedSection
    let next := (links[h.info]?).getD 0
    return (links.setIfInBounds h.info index).setIfInBounds index next)
    (.ok (Array.replicate sections.length 0))

def relocationSections (links : Array Nat) : (fuel : Nat) → (index : Nat) → List Nat
  | 0, _ => []
  | fuel + 1, index =>
    match links[index]? with
    | none | some 0 => []
    | some next => next :: relocationSections links fuel next

def relocationsIn (e : WordFormat) (data : List UInt8) (h : SectionHeader) : List RelocationRecord :=
  if h.type = SectionType.relocations then
    (h.records? data (RelocationRecord.reader e false) 8).getD []
  else if h.type = SectionType.relocationsWithAddends then
    (h.records? data (RelocationRecord.reader e true) 12).getD []
  else []

def relocationsOf (e : WordFormat) (data : List UInt8) (sections : List Section) (links : Array Nat)
    (index : Nat) : List RelocationRecord :=
  (relocationSections links sections.length index).flatMap fun i =>
    match sectionAt? sections i with
    | none => []
    | some s => relocationsIn e data s.header

end Elf

end SourceScope
