import SourceScope.Binary
import SourceScope.DebugInfo.Names

set_option autoImplicit false

-- Small files, written out down to their bytes. Words are little-endian and of four bytes.
namespace SourceScope.Sample

def half (n : Nat) : List UInt8 := ByteOrder.little.encode 2 n

def word (n : Nat) : List UInt8 := ByteOrder.little.encode 4 n

def sized (bytes : List UInt8) : List UInt8 := word bytes.length ++ bytes

def cString (text : String) : List UInt8 := text.toUTF8.toList ++ [0]

def function (name : String) (address size : UInt32) : Symbol := ⟨name, name, address, size, true⟩

def nops (count : Nat) : List UInt8 := (List.replicate count [0, 0xbf]).flatten

def debug (abbreviations info lines : List UInt8) : List (String × List UInt8) :=
  [(".debug_abbrev", abbreviations), (".debug_info", info), (".debug_line", lines)]

def code (address : UInt32) (bytes : List UInt8) (symbols : List Symbol)
    (debug : List (String × List UInt8)) : Binary where
  order := .little
  isRelocatable := false
  debug := debug
  symbols := symbols
  code := [⟨".text", address, bytes⟩]

def abbreviation (number : UInt8) (tag : Nat) (hasChildren : Bool)
    (forms : List (Nat × UInt8)) : List UInt8 :=
  [number, UInt8.ofNat tag, if hasChildren then 1 else 0] ++
    (forms.flatMap fun (name, form) => [UInt8.ofNat name, form]) ++ [0, 0]

-- The forms of an address, a word, a text, a byte, a reference, an offset and an expression.
def addressForm : UInt8 := 0x01
def wordForm : UInt8 := 0x06
def textForm : UInt8 := 0x08
def byteForm : UInt8 := 0x0b
def referenceForm : UInt8 := 0x13
def offsetForm : UInt8 := 0x17
def expressionForm : UInt8 := 0x18

def unitKind : List UInt8 := abbreviation 1 0x11 true [(Attr.name, textForm)]

def functionKind (hasChildren : Bool) (more : List (Nat × UInt8)) : List UInt8 :=
  abbreviation 2 Tag.subprogram hasChildren
    ([(Attr.name, textForm), (Attr.lowPc, addressForm), (Attr.highPc, wordForm)] ++ more)

def variableKind (number form : UInt8) : List UInt8 :=
  abbreviation number Tag.variable_ false
    [(Attr.name, textForm), (Attr.type, referenceForm), (Attr.location, form)]

def intKind : List UInt8 :=
  abbreviation 4 Tag.baseType false [(Attr.name, textForm), (Attr.byteSize, byteForm)]

def localKinds (form : UInt8) : List UInt8 :=
  unitKind ++ functionKind true [] ++ variableKind 3 form ++ intKind ++ [0]

def blockKind : List UInt8 :=
  abbreviation 5 Tag.lexicalBlock true [(Attr.lowPc, addressForm), (Attr.highPc, wordForm)]

def unit (entries : List UInt8) : List UInt8 := sized (half 4 ++ word 0 ++ [4] ++ entries)

def expression (bytes : List UInt8) : List UInt8 := UInt8.ofNat bytes.length :: bytes

def functionAt (address size : Nat) (rest : List UInt8) : List UInt8 :=
  2 :: cString "f" ++ word address ++ word size ++ rest

def blockAt (address size : Nat) (entries : List UInt8) : List UInt8 :=
  5 :: word address ++ word size ++ entries ++ [0]

-- All variables are of the one type there is, whose entry stands behind that of its unit.
def variable_ (number : UInt8) (name : String) (location : List UInt8) : List UInt8 :=
  number :: cString name ++ word 14 ++ location

def unitWithInt (entries : List UInt8) : List UInt8 :=
  unit (1 :: cString "a" ++ 4 :: cString "i" ++ [4] ++ entries ++ [0])

def lineProgram (files : List String) (operations : List UInt8) : List UInt8 :=
  sized (half 4 ++ sized
    ([1, 1, 1, 0xfb, 14, 13, 0, 1, 1, 1, 1, 0, 0, 0, 1, 0, 0, 1, 0] ++
      files.flatMap (fun file => cString file ++ [0, 0, 0]) ++ [0]) ++ operations)

-- The rows from an address on, the last of which takes two bytes.
def sequence (address : Nat) (rows : List UInt8) : List UInt8 :=
  [0, 5, 2] ++ word address ++ rows ++ [2, 2, 0, 1, 1]

def withLines (symbols : List Symbol) (files : List String) (operations : List UInt8) : Binary :=
  code 0x100 (nops 2) symbols <|
    debug (abbreviation 1 0x11 false [(Attr.name, textForm), (Attr.lineTable, offsetForm)] ++ [0])
      (unit (1 :: cString "m.c" ++ word 0)) (lineProgram files operations)

-- Where a variable is: the first address, the end and an expression for each part.
def locationList (parts : List (Nat × Nat × List UInt8)) : List UInt8 :=
  parts.flatMap (fun (first, stop, bytes) =>
    word first ++ word stop ++ half bytes.length ++ bytes) ++ word 0 ++ word 0

def elfSymbol (name : Nat) (value : List UInt8) (size : Nat) (info : UInt8) : List UInt8 :=
  word name ++ value ++ word size ++ [info, 0] ++ half 1

def elfRelocation (slot : Nat) (type symbol : UInt8) : List UInt8 :=
  word slot ++ [type, symbol, 0, 0]

-- Two nops in `.text` at `base` pages, a symbol for the second byte of them behind that of the
-- section, and a `.debug_info` that ends in a slot. The file is relocatable if `type` is one, and
-- linked if it is two.
def elf (type base mainInfo : UInt8) (slot relocations : List UInt8) : List UInt8 :=
  let records := relocations.length
  List.flatten [
    [0x7f, 0x45, 0x4c, 0x46, 1, 1, 1], List.replicate 9 0, [type, 0], half 40, word 1, word 0, word 0,
    word (164 + records), [0, 0, 0, 5], half 52, half 0, half 0, half 40, half 6, half 5,
    nops 2, unit (1 :: slot), relocations,
    List.replicate 16 0, elfSymbol 0 [0, base, 0, 0] 0 3, elfSymbol 39 [1, base, 0, 0] 4 mainInfo,
    [0], cString ".text", cString ".rel.debug_info", cString ".symtab", cString ".strtab",
    cString "main",
    List.replicate 40 0,
    [1, 1, 6].flatMap word, [0, base, 0, 0], [52, 4, 0, 0, 2, 0].flatMap word,
    [11, 1, 0, 0, 56, 16, 0, 0, 1, 0].flatMap word,
    [7, 9, 0, 0, 72, records, 4, 2, 4, 8].flatMap word,
    [23, 2, 0, 0, 72 + records, 48, 5, 2, 4, 16].flatMap word,
    [31, 3, 0, 0, 120 + records, 44, 0, 0, 1, 0].flatMap word]

end SourceScope.Sample
