import SourceScope.Coff.Image
import SourceScope.Elf.Image
import SourceScope.Error
import SourceScope.File
import SourceScope.Image.Binary
import SourceScope.Image.Format
import SourceScope.MachO.Image
import SourceScope.Xcoff.Image

set_option autoImplicit false

namespace SourceScope

inductive ImageError where
  | format (cause : FormatError)
  | collection
  | elf (cause : ElfError)
  | machO (cause : MachOError)
  | coff (cause : CoffError)
  | xcoff (cause : XcoffError)
deriving DecidableEq, Repr

namespace ImageError

def message : ImageError → String
  | format cause => cause.message
  | collection => "Unsupported file format"
  | elf cause => cause.message
  | machO cause => cause.message
  | coff cause => cause.message
  | xcoff cause => cause.message

end ImageError

namespace Image

def ofFormat (data : List UInt8) : Format → Except ImageError Image
  | .elf width => (Elf.read width data).mapError .elf
  | .machO words => (MachO.read words data).mapError .machO
  | .executable offset width => (Coff.readExecutable offset width data).mapError .coff
  | .coff => (Coff.read data).mapError .coff
  | .bigCoff => (Coff.readBig data).mapError .coff
  | .xcoff width => (Xcoff.read width data).mapError .xcoff
  | .collection => .error .collection

def read (data : List UInt8) : Except ImageError Image :=
  match Format.ofBytes data with
  | .error cause => .error (.format cause)
  | .ok format => ofFormat data format

end Image

namespace Binary

def read (placement : Placement) (data : List UInt8) : Except ModelError Binary :=
  match Image.read data with
  | .error cause => .error (.elf ("Failed to parse ELF: " ++ cause.message))
  | .ok image =>
    match image.width with
    | .wide => .error (.unsupported "64-bit ELF")
    | .narrow => (image.toBinary placement).mapError fun cause => .object cause.message

def load (placement : Placement) (files : FileSystem) (path : String) : Except ModelError Binary :=
  match files.read path with
  | .error cause => .error (.elf ("Failed to read file " ++ path ++ ": " ++ cause.message))
  | .ok data => read placement data

end Binary

end SourceScope
