import SourceScope.Image.Table

set_option autoImplicit false

namespace SourceScope

inductive ContentsError where
  | outsideFile
  | compressed
  | unknownCompression
  | compressedOffset
  | compressedSize
  | compressedWithoutData
  | taggedWithoutData
  | taggedSize
  | badTag
  | coffOutsideFile
  | executableOutsideFile
  | xcoffOutsideFile
deriving DecidableEq, Repr

namespace ContentsError

def message : ContentsError → String
  | outsideFile => "Invalid compressed data size or offset"
  | compressed => "Unsupported compressed data."
  | unknownCompression => "Unsupported ELF compression type"
  | compressedOffset => "Invalid ELF compressed section offset"
  | compressedSize => "Invalid ELF compressed section size"
  | compressedWithoutData => "Invalid ELF compressed section type"
  | taggedWithoutData => "Invalid ELF GNU compressed section type"
  | taggedSize => "GNU compressed section is too short"
  | badTag => "Invalid GNU compressed section header"
  | coffOutsideFile => "Invalid COFF section offset or size"
  | executableOutsideFile => "Invalid PE section offset or size"
  | xcoffOutsideFile => "Invalid XCOFF section offset or size"

end ContentsError

inductive Storage where
  -- The section has no bytes in the file.
  | absent
  -- Bytes of the file, and what is wrong if the file does not have them.
  | place (offset size : Nat) (missing : ContentsError)
  | refused (cause : ContentsError)
deriving DecidableEq, Repr

namespace Storage

def contents (data : List UInt8) : Storage → Except ContentsError (List UInt8)
  | absent => .ok []
  | place offset size missing =>
    match slice? data offset size with
    | some bytes => .ok bytes
    | none => .error missing
  | refused cause => .error cause

def tag : List UInt8 := [0x5a, 0x4c, 0x49, 0x42, 0, 0, 0, 0]

def taggedError (data : List UInt8) (offset size : Nat) : ContentsError :=
  match slice? data offset tag.length with
  | none => .taggedSize
  | some found =>
    let headerSize := tag.length + 4
    if found ≠ tag then .badTag
    else if (slice? data offset headerSize).isNone ∨ size < headerSize then .taggedSize
    else if (slice? data (offset + headerSize) (size - headerSize)).isNone then .outsideFile
    else .compressed

def tagged (data : List UInt8) : Option (Nat × Nat) → Storage
  | none => refused .taggedWithoutData
  | some (offset, size) => refused (taggedError data offset size)

end Storage

end SourceScope
