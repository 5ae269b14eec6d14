import SourceScope.Image.Basic

set_option autoImplicit false

namespace SourceScope

abbrev Placement := String → Option UInt32

namespace Placement

def linked : Placement := fun _ => none

def ofOrigins : List (String × UInt32) → Placement
  | [], _ => none
  | (named, origin) :: rest, name =>
    match ofOrigins rest name with
    | some later => some later
    | none => if named = name then some origin else none

end Placement

namespace Image

namespace Section

def origin (placement : Placement) (s : Section) : UInt32 :=
  (s.nameText?.bind placement).getD (UInt32.ofNat s.address)

def loadAddress (placement : Placement) (s : Section) (address : Nat) : UInt32 :=
  s.origin placement + (UInt32.ofNat address - UInt32.ofNat s.address)

end Section

def loadAddress (image : Image) (placement : Placement) (p : Position) : UInt32 :=
  match image.home? p with
  | some home => home.loadAddress placement p.address
  | none => UInt32.ofNat p.address

end Image

end SourceScope
