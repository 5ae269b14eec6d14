import SourceScope.Text.Hex

set_option autoImplicit false

namespace SourceScope

structure CodeRange where
  first : UInt32
  last : UInt32
  -- Whether the code is an inlined expansion.
  inlined : Bool
deriving DecidableEq, Repr, Inhabited

namespace CodeRange

def ofHalfOpen? (low high : UInt32) : Option CodeRange :=
  if high ≤ low then none else some ⟨low, high - 1, false⟩

def markInlined (r : CodeRange) : CodeRange := { r with inlined := true }

def contains (r : CodeRange) (address : UInt32) : Bool := r.first ≤ address && address ≤ r.last

def size (r : CodeRange) : Nat := r.last.toNat + 1 - r.first.toNat

def overlaps (r s : CodeRange) : Bool := r.first ≤ s.last && s.first ≤ r.last

def moved (r : CodeRange) (delta : UInt32) : CodeRange :=
  { r with first := r.first + delta, last := r.last + delta }

def text (r : CodeRange) : String :=
  "[" ++ Hex.address r.first ++ ", " ++ Hex.address r.last ++ "]" ++
    if r.inlined then " inline" else ""

end CodeRange

end SourceScope
