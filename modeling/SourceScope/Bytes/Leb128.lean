import SourceScope.Bytes.Reader

set_option autoImplicit false

namespace SourceScope.Leb128

def lowBits (byte : UInt8) : Nat := byte.toNat % 128

def unsignedFrom (index : Nat) : Reader Nat
  | [] => .error .unexpectedEnd
  | byte :: rest =>
    if index = 9 ∧ byte ≠ 0 ∧ byte ≠ 1 then .error .badUnsignedLeb128
    else if byte.toNat < 128 then .ok (byte.toNat, rest)
    else
      match unsignedFrom (index + 1) rest with
      | .error e => .error e
      | .ok (high, left) => .ok (lowBits byte + 128 * high, left)

def signedFrom (index : Nat) : Reader Int
  | [] => .error .unexpectedEnd
  | byte :: rest =>
    if index = 9 ∧ byte ≠ 0 ∧ byte ≠ 0x7f then .error .badSignedLeb128
    else if byte.toNat < 128 then
      .ok (if byte.toNat < 64 then (byte.toNat : Int) else byte.toNat - 128, rest)
    else
      match signedFrom (index + 1) rest with
      | .error e => .error e
      | .ok (high, left) => .ok (lowBits byte + 128 * high, left)

def unsigned : Reader Nat := unsignedFrom 0

def signed : Reader Int := signedFrom 0

def unsigned16 : Reader UInt16
  | [] => .error .unexpectedEnd
  | first :: rest =>
    if first.toNat < 128 then .ok (UInt16.ofNat first.toNat, rest)
    else
      match rest with
      | [] => .error .unexpectedEnd
      | second :: rest =>
        let low := lowBits first + 128 * lowBits second
        if second.toNat < 128 then .ok (UInt16.ofNat low, rest)
        else
          match rest with
          | [] => .error .unexpectedEnd
          | third :: rest =>
            if third.toNat > 3 then .error .badUnsignedLeb128
            else .ok (UInt16.ofNat (low + 16384 * third.toNat), rest)

def unsigned32 : Reader UInt32 := do
  let n ← unsigned
  if n < UInt32.size then return UInt32.ofNat n else Reader.fail .badUnsignedLeb128

def skip : Reader Unit
  | [] => .error .unexpectedEnd
  | byte :: rest => if byte.toNat < 128 then .ok ((), rest) else skip rest

def encodeUnsigned (n : Nat) : List UInt8 :=
  if n < 128 then [UInt8.ofNat n]
  else UInt8.ofNat (n % 128 + 128) :: encodeUnsigned (n / 128)
termination_by n

def encodeSigned (n : Int) : List UInt8 :=
  if -64 ≤ n ∧ n < 64 then [UInt8.ofNat (n % 128).toNat]
  else UInt8.ofNat ((n % 128).toNat + 128) :: encodeSigned (n / 128)
termination_by n.natAbs
decreasing_by omega

end SourceScope.Leb128
