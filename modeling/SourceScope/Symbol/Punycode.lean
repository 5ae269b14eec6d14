set_option autoImplicit false

namespace SourceScope.Punycode

def digit? (c : Char) : Option Nat :=
  if 'a' ≤ c ∧ c ≤ 'z' then some (c.toNat - 'a'.toNat)
  else if c.isDigit then some (c.toNat - '0'.toNat + 26)
  else none

def threshold (place bias : Nat) : Nat := min (max (place - bias) 1) 26

def distance? (bias : Nat) : (place weight sum : Nat) → List Char → Option (Nat × List Char)
  | _, _, _, [] => none
  | place, weight, sum, c :: rest =>
    match digit? c with
    | none => none
    | some d =>
      let sum := sum + d * weight
      let t := threshold place bias
      if UInt64.size ≤ sum then none
      else if d < t then some (sum, rest)
      else if UInt64.size ≤ weight * (36 - t) then none
      else distance? bias (place + 36) (weight * (36 - t)) sum rest

def damped : (steps : Nat) → (bias delta : Nat) → Nat
  | 0, bias, delta => bias + 36 * delta / (delta + 38)
  | steps + 1, bias, delta =>
    if 455 < delta then damped steps (bias + 36) (delta / 35)
    else bias + 36 * delta / (delta + 38)

def adapted (isFirst : Bool) (delta length : Nat) : Nat :=
  let delta := if isFirst then delta / 700 else delta / 2
  damped 64 0 (delta + delta / length)

def character? (n : Nat) : Option Char := if n.isValidChar then some (Char.ofNat n) else none

def insertAll : (steps : Nat) → (isFirst : Bool) → (bias code place : Nat) → List Char →
    List Char → Option (List Char)
  | 0, _, _, _, _, _, _ => none
  | steps + 1, isFirst, bias, code, place, decoded, encoded => do
    let (delta, rest) ← distance? bias 36 1 0 encoded
    let length := decoded.length + 1
    let place := place + delta
    let code := code + place / length
    let place := place % length
    let c ← character? code
    let decoded := decoded.take place ++ c :: decoded.drop place
    if rest.isEmpty then return decoded
    else insertAll steps false (adapted isFirst delta length) code (place + 1) decoded rest

def decode? (ascii encoded : List Char) : Option (List Char) :=
  insertAll encoded.length true 72 128 0 ascii encoded

end SourceScope.Punycode
