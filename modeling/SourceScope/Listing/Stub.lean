import SourceScope.Binary
import SourceScope.Code.Coverage
import SourceScope.Function.Set
import SourceScope.Line.Extent
import SourceScope.Listing.Basic

set_option autoImplicit false

namespace SourceScope

namespace FunctionSet

def symbolEnd (least : UInt32) (symbol : Symbol) (later : List Symbol) : UInt32 :=
  let size :=
    if 0 < symbol.size then symbol.size
    else
      match later.find? (symbol.address < ·.address) with
      | some next => next.address - symbol.address
      | none => least
  LineExtent.saturatingAdd symbol.address size

/-- Adds stubs for symbols in ascending order. `stubbed` is where the latest stub ends. -/
def addStubs (least : UInt32) (known : Coverage) : Option UInt32 → List Symbol → FunctionSet →
    FunctionSet
  | _, [], set => set
  | stubbed, symbol :: later, set =>
    -- other names of a stub share its code
    if known.contains symbol.address || stubbed.any (symbol.address < ·) then
      addStubs least known stubbed later set
    else
      let stop := symbolEnd least symbol later
      match CodeRange.ofHalfOpen? symbol.address stop with
      | none => addStubs least known stubbed later set
      | some range =>
        addStubs least known (some stop) later (set.insert (.stub symbol.name [range])).2

def withSymbolStubs (least : UInt32) (symbols : List Symbol) (set : FunctionSet) : FunctionSet :=
  addStubs least (Coverage.ofRanges set.ranges) none
    (symbols.mergeSort fun a b => a.address ≤ b.address) set

/-- The addresses of instructions outside of known code, joined where they touch. `current` is the
range that may still grow. -/
def uncovered (known : Coverage) : Option CodeRange → List Opcode → List CodeRange
  | current, [] => current.toList
  | current, o :: rest =>
    if known.contains o.address then uncovered known current rest
    else
      let last := LineExtent.saturatingAdd o.address (UInt32.ofNat (o.size.toNat - 1))
      match current with
      | none => uncovered known (some ⟨o.address, last, false⟩) rest
      | some range =>
        if range.last + 1 = o.address then uncovered known (some { range with last }) rest
        else range :: uncovered known (some ⟨o.address, last, false⟩) rest

def withDriver (name : String) (opcodes : List Opcode) (set : FunctionSet) :
    FunctionId × FunctionSet :=
  set.insert (.stub name (uncovered (Coverage.ofRanges set.ranges) none opcodes))

end FunctionSet

end SourceScope
