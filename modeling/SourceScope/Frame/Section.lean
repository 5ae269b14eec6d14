import SourceScope.Frame.Instruction
import SourceScope.Text.Quoted
import SourceScope.Text.Utf8

set_option autoImplicit false

namespace SourceScope

inductive FrameError where
  | unsupportedVersion (version : UInt8)
  | augmentation (text : String)
  | wideEntry
  | noDescription (pc : UInt32)
  | notImplemented (rule : Frame.UnfollowedRule)
  | unknownCommonEntry (offset : Nat)
  | registerUnavailable (register : UInt16)
  | truncated
deriving DecidableEq, Repr

namespace FrameError

def message : FrameError → String
  | unsupportedVersion version => s!"unsupported CIE version {version}"
  | augmentation text => "unsupported CIE augmentation " ++ Quoted.text text
  | wideEntry => "64-bit call frame entries are not supported"
  | noDescription pc => "no frame description covers " ++ Hex.address pc
  | notImplemented rule => rule.name ++ " is not implemented"
  | unknownCommonEntry offset => "FDE references unknown CIE at offset 0x" ++ Hex.text offset
  | registerUnavailable register => s!"register r{register} unavailable"
  | truncated => "truncated call frame entry"

end FrameError

namespace Frame

structure CommonEntry where
  offset : Nat
  codeAlign : UInt32
  dataAlign : Int64
  returnRegister : UInt16
  instructions : List UInt8
deriving DecidableEq, Repr

structure Description where
  offset : Nat
  -- Offset of the common entry.
  common : Nat
  start : UInt32
  length : UInt32
  instructions : List UInt8
deriving DecidableEq, Repr

def Description.contains (d : Description) (pc : UInt32) : Bool :=
  d.start ≤ pc && pc - d.start < d.length

inductive Entry where
  | common (entry : CommonEntry)
  | description (entry : Description)
deriving DecidableEq, Repr

def commonMarker : UInt32 := 0xffffffff

def supportedVersion : UInt8 := 1

def truncating {α : Type} (reader : Reader α) (bytes : List UInt8) :
    Except FrameError (α × List UInt8) :=
  match reader bytes with
  | .error _ => .error .truncated
  | .ok found => .ok found

def alignments : Reader (UInt32 × Int64 × UInt16) := do
  let code ← Leb128.unsigned
  let data ← Leb128.signed
  let register ← Reader.byte
  return (UInt32.ofNat code, Int64.ofInt data, register.toUInt16)

def CommonEntry.parse (offset : Nat) (body : List UInt8) : Except FrameError CommonEntry := do
  let (version, body) ← truncating Reader.byte body
  if version ≠ supportedVersion then throw (.unsupportedVersion version)
  let (augmentation, body) ← truncating Reader.untilZero body
  if !augmentation.isEmpty then throw (.augmentation (Utf8.lossy augmentation))
  let ((codeAlign, dataAlign, returnRegister), instructions) ← truncating alignments body
  return { offset, codeAlign, dataAlign, returnRegister, instructions }

def Description.parse (order : ByteOrder) (offset : Nat) (common : UInt32) (body : List UInt8) :
    Except FrameError Description := do
  let (start, body) ← truncating (Reader.word32 order) body
  let (length, instructions) ← truncating (Reader.word32 order) body
  return { offset, common := common.toNat, start, length, instructions }

def Entry.parse (order : ByteOrder) (offset : Nat) (body : List UInt8) :
    Except FrameError Entry := do
  let (marker, body) ← truncating (Reader.word32 order) body
  if marker = commonMarker then return .common (← CommonEntry.parse offset body)
  else return .description (← Description.parse order offset marker body)

def entries (order : ByteOrder) (offset : Nat) : List UInt8 → Except FrameError (List Entry)
  | [] => .ok []
  | a :: b :: c :: d :: rest =>
    let length := order.value [a, b, c, d]
    if length = 0xffffffff then .error .wideEntry
    else if length = 0 then entries order (offset + 4) rest
    else
      let body := rest.take length
      if body.length < length then .error .truncated
      else
        match Entry.parse order offset body with
        | .error e => .error e
        | .ok entry =>
          match entries order (offset + 4 + length) (rest.drop length) with
          | .error e => .error e
          | .ok later => .ok (entry :: later)
  | _ => .error .truncated
termination_by bytes => bytes.length
decreasing_by all_goals simp only [List.length_cons, List.length_drop]; omega

end Frame

structure FrameSection where
  order : ByteOrder
  commons : List Frame.CommonEntry
  descriptions : List Frame.Description
deriving Repr

namespace FrameSection

open SourceScope.Frame

def common? (table : FrameSection) (offset : Nat) : Option CommonEntry :=
  table.commons.find? (·.offset == offset)

def ofEntries (order : ByteOrder) (found : List Frame.Entry) : Except FrameError FrameSection :=
  let commons := found.filterMap fun | .common entry => some entry | .description _ => none
  let descriptions := found.filterMap fun | .description entry => some entry | .common _ => none
  match descriptions.find? fun d => !commons.any (·.offset == d.common) with
  | some orphan => .error (.unknownCommonEntry orphan.common)
  | none => .ok ⟨order, commons, descriptions.mergeSort fun a b => a.start ≤ b.start⟩

def parse (order : ByteOrder) (data : List UInt8) : Except FrameError FrameSection :=
  match entries order 0 data with
  | .error e => .error e
  | .ok found => ofEntries order found

def covering? (table : FrameSection) (pc : UInt32) : Option Description :=
  (table.descriptions.takeWhile (·.start ≤ pc)).reverse.find? (·.contains pc)

end FrameSection

end SourceScope
