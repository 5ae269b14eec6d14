set_option autoImplicit false

namespace SourceScope.Binary32

/-- A positive finite number, four times its significand and the power of two of that quarter. The
numbers that round to it reach from `below` to `above` quarters, ends included for even
significands. -/
structure Finite where
  quarters : Nat
  power : Int
  below : Nat
  above : Nat
  ends : Bool
deriving DecidableEq, Repr

def fractionSize : Nat := 0x800000

def Finite.ofFields (exponent fraction : Nat) : Finite :=
  let significand := if exponent = 0 then fraction else fraction + fractionSize
  let quarters := 4 * significand
  -- below a power of two, numbers lie twice as close
  let narrow := fraction = 0 ∧ 1 < exponent
  { quarters
    power := (max exponent 1 : Nat) - 152
    below := if narrow then quarters - 1 else quarters - 2
    above := quarters + 2
    ends := significand % 2 = 0 }

def powerOfTen (exponent : Int) : Nat := Nat.pow 10 exponent.toNat

def compareScaled (digits : Nat) (ten : Int) (quarters : Nat) (two : Int) : Ordering :=
  compare ((digits * powerOfTen ten) <<< (-two).toNat) ((quarters * powerOfTen (-ten)) <<< two.toNat)

namespace Finite

def holds (f : Finite) (digits : Nat) (ten : Int) : Bool :=
  let low := compareScaled digits ten f.below f.power
  let high := compareScaled digits ten f.above f.power
  (low == .gt || (f.ends && low == .eq)) && (high == .lt || (f.ends && high == .eq))

def wholeUnits (f : Finite) (ten : Int) : Nat :=
  (f.quarters * powerOfTen (-ten)) <<< f.power.toNat / (powerOfTen ten <<< (-f.power).toNat)

def magnitude (f : Finite) : Int :=
  let candidates := (List.range 90).map fun (i : Nat) => (i : Int) - 48
  (candidates.find? fun k => compareScaled 1 k f.quarters f.power == .gt).getD 0

def nearest? (f : Finite) (ten : Int) : Option Nat :=
  let down := f.wholeUnits ten
  let up := down + 1
  match f.holds down ten, f.holds up ten with
  | true, true =>
    some (if compareScaled (2 * down + 1) ten (2 * f.quarters) f.power == .gt then down else up)
  | true, false => some down
  | false, true => some up
  | false, false => none

def shortest (f : Finite) : Nat × Int :=
  let k := f.magnitude
  let grids := (List.range 10).map fun (i : Nat) => k - (i + 1 : Nat)
  (grids.findSome? fun ten => (f.nearest? ten).map fun digits => (digits, ten)).getD (0, 0)

end Finite

def zeros (n : Nat) : List Char := List.replicate n '0'

def positional (digits : Nat) (ten : Int) : String :=
  let shown := Nat.toDigits 10 digits
  if 0 ≤ ten then String.ofList (shown ++ zeros ten.toNat)
  else
    let places := (-ten).toNat
    let padded := zeros (places + 1 - shown.length) ++ shown
    let whole := padded.length - places
    String.ofList (padded.take whole ++ '.' :: padded.drop whole)

def text (bits : UInt32) : String :=
  let n := bits.toNat
  let exponent := n / fractionSize % 256
  let fraction := n % fractionSize
  let sign := if n / (256 * fractionSize) = 1 then "-" else ""
  if exponent = 255 then if fraction = 0 then sign ++ "inf" else "NaN"
  else if exponent = 0 ∧ fraction = 0 then sign ++ "0"
  else
    let (digits, ten) := (Finite.ofFields exponent fraction).shortest
    sign ++ positional digits ten

end SourceScope.Binary32
