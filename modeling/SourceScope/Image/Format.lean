import SourceScope.Coff.Header

set_option autoImplicit false

namespace SourceScope

inductive Format where
  | elf (width : Width)
  | machO (words : WordFormat)
  -- An executable, whose signature is at an offset.
  | executable (offset : Nat) (width : Width)
  | coff
  | bigCoff
  | xcoff (width : Width)
  -- A collection of objects, or an object that stands for another.
  | collection
deriving DecidableEq, Repr

inductive FormatError where
  | noMagic
  | unknownMagic
  | unknownDosFile
  | unknownClass
deriving DecidableEq, Repr

namespace FormatError

def message : FormatError → String
  | noMagic => "Could not read file magic"
  | unknownMagic => "Unknown file magic"
  | unknownDosFile => "Unknown MS-DOS file"
  | unknownClass => "Unknown anon object file"

end FormatError

namespace Format

def collectionMagics : List (List UInt8) := [
  [0x21, 0x3c, 0x61, 0x72, 0x63, 0x68, 0x3e, 0x0a],
  [0x21, 0x3c, 0x74, 0x68, 0x69, 0x6e, 0x3e, 0x0a],
  [0x3c, 0x62, 0x69, 0x67, 0x61, 0x66, 0x3e, 0x0a],
  [0x64, 0x79, 0x6c, 0x64, 0x5f, 0x76, 0x31, 0x20],
  [0xca, 0xfe, 0xba, 0xbe], [0xca, 0xfe, 0xba, 0xbf],
  [0x00, 0x00, 0xff, 0xff, 0x00, 0x00]]

def coffMagics : List (List UInt8) := [
  [0xc4, 0x01], [0x64, 0xaa], [0x41, 0xa6], [0xf0, 0x01], [0xf1, 0x01], [0xf2, 0x01], [0x4c, 0x01],
  [0x64, 0x86]]

def startsWithAny (magics : List (List UInt8)) (data : List UInt8) : Bool :=
  magics.any (·.isPrefixOf data)

def ofMagic (data : List UInt8) : Except FormatError Format :=
  match data with
  | 0x7f :: 0x45 :: 0x4c :: 0x46 :: 1 :: _ => .ok (.elf .narrow)
  | 0x7f :: 0x45 :: 0x4c :: 0x46 :: 2 :: _ => .ok (.elf .wide)
  | 0xfe :: 0xed :: 0xfa :: 0xce :: _ => .ok (.machO ⟨.narrow, .big⟩)
  | 0xce :: 0xfa :: 0xed :: 0xfe :: _ => .ok (.machO ⟨.narrow, .little⟩)
  | 0xfe :: 0xed :: 0xfa :: 0xcf :: _ => .ok (.machO ⟨.wide, .big⟩)
  | 0xcf :: 0xfa :: 0xed :: 0xfe :: _ => .ok (.machO ⟨.wide, .little⟩)
  | 0x4d :: 0x5a :: _ =>
    match Coff.executable? data with
    | some (offset, width) => .ok (.executable offset width)
    | none => .error .unknownDosFile
  | 0x00 :: 0x00 :: 0xff :: 0xff :: 0x02 :: 0x00 :: _ =>
    if Coff.class? data = some Coff.bigClass then .ok .bigCoff else .error .unknownClass
  | 0x01 :: 0xdf :: _ => .ok (.xcoff .narrow)
  | 0x01 :: 0xf7 :: _ => .ok (.xcoff .wide)
  | _ =>
    if startsWithAny coffMagics data then .ok .coff
    else if startsWithAny collectionMagics data then .ok .collection
    else .error .unknownMagic

def ofBytes (data : List UInt8) : Except FormatError Format :=
  if data.length < 16 then .error .noMagic else ofMagic data

end Format

end SourceScope
