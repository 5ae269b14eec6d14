import SourceScope.Code.Range

set_option autoImplicit false

namespace SourceScope

structure Span where
  first : UInt32
  last : UInt32
deriving DecidableEq, Repr

structure Coverage where
  spans : List Span
deriving DecidableEq, Repr

namespace Coverage

def following (address : UInt32) : UInt32 := if address = 0xffffffff then address else address + 1

/-- Joins each span to the one before it where they meet or touch. `current` is the span that may
still grow. -/
def merge (current : Span) : List Span → List Span
  | [] => [current]
  | next :: rest =>
    if next.first ≤ following current.last then
      merge { current with last := max current.last next.last } rest
    else current :: merge next rest

def precedes (a b : Span) : Bool :=
  a.first < b.first || (a.first == b.first && a.last ≤ b.last)

def ofRanges (ranges : List CodeRange) : Coverage :=
  match (ranges.map fun r => Span.mk r.first r.last).mergeSort precedes with
  | [] => ⟨[]⟩
  | first :: rest => ⟨merge first rest⟩

def contains (c : Coverage) (address : UInt32) : Bool :=
  match (c.spans.takeWhile (·.first ≤ address)).getLast? with
  | some span => address ≤ span.last
  | none => false

end Coverage

end SourceScope
