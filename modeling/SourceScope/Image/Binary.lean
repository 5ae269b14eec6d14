import SourceScope.Binary
import SourceScope.Image.Relocation
import SourceScope.Symbol.Readable

set_option autoImplicit false

namespace SourceScope

namespace Image

def contents (image : Image) (s : Section) : Except ContentsError (List UInt8) :=
  s.storage.contents image.data

def debugContents (image : Image) (placement : Placement) (name : String) :
    Except ContentsError (List (String × List UInt8)) := do
  let some s := image.debugSection? name | return []
  let bytes ← image.contents s
  return [(name, image.relocated placement s.relocations bytes)]

def symbolOf? (image : Image) (placement : Placement) (d : Definition) : Option Symbol := do
  let name ← d.nameText?
  if name.isEmpty || name.toList.head? == some '$' then none
  let isFunction ← match d.kind with
    | .code => some true
    | .data => some false
    | .other => none
  let home ← image.home? d.position
  let address := home.loadAddress placement d.position.address
  return {
    name := Symbol.readable name
    linkName := name
    -- the lowest bit of a function's address is no part of it
    address := if isFunction then address &&& 0xfffffffe else address
    size := UInt32.ofNat d.size
    isFunction }

def codeOf (image : Image) (placement : Placement) (s : Section) :
    Except ContentsError (List CodeSection) := do
  if !s.isCode then return []
  let bytes ← image.contents s
  if bytes.isEmpty then return []
  return [⟨s.nameText?.getD "", s.origin placement, bytes⟩]

def toBinary (image : Image) (placement : Placement) : Except ContentsError Binary := do
  let debug ← debugNames.mapM (image.debugContents placement)
  let code ← image.sections.mapM (image.codeOf placement)
  return {
    order := image.order
    isRelocatable := image.isRelocatable
    debug := debug.flatten
    symbols := image.definitions.filterMap (image.symbolOf? placement)
    code := code.flatten }

end Image

end SourceScope
