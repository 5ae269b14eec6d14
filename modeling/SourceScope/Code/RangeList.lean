import SourceScope.Bytes.Reader
import SourceScope.Code.Range
import SourceScope.Location.Section

set_option autoImplicit false

namespace SourceScope

namespace RangeList

def ranges (order : ByteOrder) (base : UInt32) : List UInt8 → Except ReadError (List CodeRange)
  | a :: b :: c :: d :: e :: f :: g :: h :: rest =>
    let low := UInt32.ofNat (order.value [a, b, c, d])
    let high := UInt32.ofNat (order.value [e, f, g, h])
    if low = 0 ∧ high = 0 then .ok []
    else if low = baseSelection then ranges order high rest
    else
      match ranges order base rest with
      | .error cause => .error cause
      | .ok later => .ok ((CodeRange.ofHalfOpen? (base + low) (base + high)).toList ++ later)
  | _ => .error .unexpectedEnd

end RangeList

structure RangeSection where
  order : ByteOrder
  data : List UInt8
deriving Repr

def RangeSection.ranges (section_ : RangeSection) (offset : Nat) (base : UInt32) :
    Except ReadError (List CodeRange) :=
  if section_.data.length < offset then .error .unexpectedEnd
  else RangeList.ranges section_.order base (section_.data.drop offset)

end SourceScope
