set_option autoImplicit false

namespace SourceScope.Hex

def digit (n : Nat) : Char :=
  if n < 10 then Char.ofNat (48 + n) else Char.ofNat (87 + n)

def digits (n : Nat) : List Char :=
  if n < 16 then [digit n] else digits (n / 16) ++ [digit (n % 16)]
termination_by n

def text (n : Nat) : String := String.ofList (digits n)

def padded (width n : Nat) : String :=
  let shown := digits n
  String.ofList (List.replicate (width - shown.length) '0' ++ shown)

def address (n : UInt32) : String := "0x" ++ padded 8 n.toNat

def byte (b : UInt8) : List Char := [digit (b.toNat / 16), digit (b.toNat % 16)]

def bytes (data : List UInt8) : String := String.ofList (data.flatMap byte)

end SourceScope.Hex
