import SourceScope.Code.RangeList
import SourceScope.Entry.Basic

set_option autoImplicit false

namespace SourceScope.Entry

def highPc? (e : Entry) (low : UInt32) : Option UInt32 :=
  match e.attr? Attr.highPc with
  | some (.address high) => some high
  | some value => value.natural?.map fun length => low + length.toUInt32
  | none => some (low + 1)

def ranges (e : Entry) (base : UInt32) (lists : RangeSection) :
    Except ReadError (List CodeRange) :=
  match e.attr? Attr.lowPc with
  | some (.address low) =>
    match e.highPc? low with
    | some high => .ok (CodeRange.ofHalfOpen? low high).toList
    | none => .ok []
  | _ =>
    match e.attr? Attr.ranges with
    | some (.rangeList offset) => lists.ranges offset base
    | _ => .ok []

end SourceScope.Entry
