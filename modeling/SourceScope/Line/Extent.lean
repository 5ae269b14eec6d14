import SourceScope.Order.PartitionPoint

set_option autoImplicit false

namespace SourceScope

structure LineRow where
  address : UInt32
  file : String
  -- Zero where the compiler gave no line.
  line : UInt32
  -- Whether the row marks the first address past a sequence.
  endsSequence : Bool
deriving DecidableEq, Repr

def LineRow.ending (address : UInt32) : LineRow := ⟨address, "", 0, true⟩

structure LineExtent where
  file : String
  line : UInt32
  start : UInt32
  stop : UInt32
deriving DecidableEq, Repr

namespace LineExtent

def saturatingAdd (a b : UInt32) : UInt32 :=
  if a.toNat + b.toNat < UInt32.size then a + b else 0xffffffff

/-- Where the last row of a sequence ends: at the end of the sequence or at the next symbol,
whichever is first, but no less than `least` bytes after its start. -/
def lastStop (symbols : Array UInt32) (least : UInt32) (address : UInt32)
    (sequenceEnd : Option UInt32) : UInt32 :=
  let symbol := symbols[partitionPoint (· ≤ address) symbols]?
  let stop :=
    match sequenceEnd, symbol with
    | some a, some b => min a b
    | some a, none => a
    | none, some b => b
    | none, none => 0
  max stop (saturatingAdd address least)

def stopOf (symbols : Array UInt32) (least : UInt32) (row : LineRow) (next : Option LineRow) :
    UInt32 :=
  match next with
  | some next =>
    if next.endsSequence then lastStop symbols least row.address (some next.address)
    else next.address
  | none => lastStop symbols least row.address none

def ofRow? (symbols : Array UInt32) (least : UInt32) (row : LineRow) (next : Option LineRow) :
    Option LineExtent :=
  if row.endsSequence || row.line == 0 then none
  else
    let stop := stopOf symbols least row next
    if row.address < stop then some ⟨row.file, row.line, row.address, stop⟩ else none

def ofRows (symbols : Array UInt32) (least : UInt32) : List LineRow → List LineExtent
  | [] => []
  | row :: rest => (ofRow? symbols least row rest.head?).toList ++ ofRows symbols least rest

end LineExtent

end SourceScope
