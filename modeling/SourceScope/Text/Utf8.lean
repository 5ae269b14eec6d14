set_option autoImplicit false

namespace SourceScope.Utf8

def replacement : Char := '\uFFFD'

def isTail (b : UInt8) : Bool := 0x80 ≤ b.toNat && b.toNat ≤ 0xBF

def tailBits (b : UInt8) : Nat := b.toNat % 64

def mayFollow (first second : UInt8) : Bool :=
  if first = 0xE0 then 0xA0 ≤ second.toNat && second.toNat ≤ 0xBF
  else if first = 0xED then 0x80 ≤ second.toNat && second.toNat ≤ 0x9F
  else if first = 0xF0 then 0x90 ≤ second.toNat && second.toNat ≤ 0xBF
  else if first = 0xF4 then 0x80 ≤ second.toNat && second.toNat ≤ 0x8F
  else isTail second

def front (first : UInt8) (rest : List UInt8) : Option Char × Nat :=
  let n := first.toNat
  if n < 0x80 then (some (Char.ofNat n), 0)
  else if 0xC2 ≤ n ∧ n ≤ 0xDF then
    match rest with
    | b :: _ => if isTail b then (some (Char.ofNat (n % 32 * 64 + tailBits b)), 1) else (none, 0)
    | [] => (none, 0)
  else if 0xE0 ≤ n ∧ n ≤ 0xEF then
    match rest with
    | b :: c :: _ =>
      if !mayFollow first b then (none, 0)
      else if isTail c then
        (some (Char.ofNat (n % 16 * 4096 + tailBits b * 64 + tailBits c)), 2)
      else (none, 1)
    | [b] => if mayFollow first b then (none, 1) else (none, 0)
    | [] => (none, 0)
  else if 0xF0 ≤ n ∧ n ≤ 0xF4 then
    match rest with
    | b :: c :: d :: _ =>
      if !mayFollow first b then (none, 0)
      else if !isTail c then (none, 1)
      else if isTail d then
        (some (Char.ofNat (n % 8 * 262144 + tailBits b * 4096 + tailBits c * 64 + tailBits d)), 3)
      else (none, 2)
    | [b, c] => if !mayFollow first b then (none, 0) else if isTail c then (none, 2) else (none, 1)
    | [b] => if mayFollow first b then (none, 1) else (none, 0)
    | [] => (none, 0)
  else (none, 0)

def lossyChars : List UInt8 → List Char
  | [] => []
  | first :: rest =>
    let (found, used) := front first rest
    found.getD replacement :: lossyChars (rest.drop used)
termination_by bytes => bytes.length
decreasing_by simp only [List.length_drop, List.length_cons]; omega

def lossy (bytes : List UInt8) : String := String.ofList (lossyChars bytes)

def strictChars : List UInt8 → Option (List Char)
  | [] => some []
  | first :: rest =>
    match front first rest with
    | (none, _) => none
    | (some c, used) => (strictChars (rest.drop used)).map (c :: ·)
termination_by bytes => bytes.length
decreasing_by simp only [List.length_drop, List.length_cons]; omega

def strict (bytes : List UInt8) : Option String := (strictChars bytes).map String.ofList

end SourceScope.Utf8
