import SourceScope.Location.Basic

set_option autoImplicit false

namespace SourceScope

def baseSelection : UInt32 := 0xffffffff

namespace Location

structure RawEntry where
  start : UInt32
  stop : UInt32
  bytes : List UInt8
deriving DecidableEq, Repr

def rawEntries (order : ByteOrder) (base : UInt32) : List UInt8 →
    Except LocationError (List RawEntry)
  | a :: b :: c :: d :: e :: f :: g :: h :: rest =>
    let start := UInt32.ofNat (order.value [a, b, c, d])
    let stop := UInt32.ofNat (order.value [e, f, g, h])
    if start = 0 ∧ stop = 0 then .ok []
    else if start = baseSelection then rawEntries order stop rest
    else
      match rest with
      | i :: j :: rest =>
        let length := order.value [i, j]
        let bytes := rest.take length
        if bytes.length < length then .error (.malformed .unexpectedEnd)
        else
          match rawEntries order base (rest.drop length) with
          | .error cause => .error cause
          | .ok later =>
            .ok (if start < stop then ⟨base + start, base + stop, bytes⟩ :: later else later)
      | _ => .error (.malformed .unexpectedEnd)
  | _ => .error (.malformed .unexpectedEnd)
termination_by bytes => bytes.length
decreasing_by all_goals simp_all only [List.length_cons, List.length_drop]; omega

end Location

structure LocationSection where
  order : ByteOrder
  data : List UInt8
deriving Repr

namespace LocationSection

open Location

def rawEntries (section_ : LocationSection) (offset : Nat) (base : UInt32) :
    Except LocationError (List RawEntry) :=
  if section_.data.length < offset then .error (.malformed .unexpectedEnd)
  else Location.rawEntries section_.order base (section_.data.drop offset)

def decodeEntry (raw : RawEntry) : Except LocationError Location.Entry :=
  match Expression.decode raw.bytes with
  | .error cause => .error cause
  | .ok e => .ok ⟨raw.start, raw.stop, e⟩

def location (section_ : LocationSection) (offset : Nat) (base : UInt32) :
    Except LocationError Location := do
  return .list (← (← section_.rawEntries offset base).mapM decodeEntry)

end LocationSection

end SourceScope
