import SourceScope.Image.Placement

set_option autoImplicit false

namespace SourceScope

def patch (data : List UInt8) (offset : Nat) (word : List UInt8) : List UInt8 :=
  data.take offset ++ word ++ data.drop (offset + word.length)

namespace Relocation

def apply (order : ByteOrder) (addressOf : Position → UInt32) (data : List UInt8)
    (r : Relocation) : List UInt8 :=
  match slice? data r.offset 4 with
  | none => data
  | some slot =>
    let addend := r.addend.getD (UInt32.ofNat (order.value slot))
    patch data r.offset (order.bytes32 (addressOf r.target + addend))

end Relocation

namespace Image

def relocated (image : Image) (placement : Placement) (relocations : List Relocation)
    (bytes : List UInt8) : List UInt8 :=
  relocations.foldl (Relocation.apply image.order (image.loadAddress placement)) bytes

end Image

end SourceScope
