import SourceScope.File
import SourceScope.Text.Quoted
import SourceScope.Text.Utf8
import SourceScope.Toml.Document
import SourceScope.Toml.Quoted

set_option autoImplicit false

namespace SourceScope

structure Settings where
  -- Number of passes over typedefs, pointers, composites, arrays and qualifiers.
  typePasses : UInt64
  -- Least number of bytes that the last line of a sequence covers.
  minLineBytes : UInt32
  -- How deep the parts of variables are laid out.
  maxChildDepth : UInt64
  -- Whether a name with "float" in it makes a floating point type.
  floatNames : Bool
  loadSourceText : Bool
  -- More directories in which source files are looked for.
  searchPaths : List String
  pcRegister : UInt16
  -- Name of the function that takes all code that no other function has.
  driverName : String
deriving DecidableEq, Repr

namespace Settings

def default : Settings where
  typePasses := 3
  minLineBytes := 4
  maxChildDepth := 4
  floatNames := true
  loadSourceText := true
  searchPaths := []
  pcRegister := 15
  driverName := "<driver>"

inductive Problem where
  | notDocument
  | wrongType (key : String)
  | noTypePass
  | noLineBytes
  | noDriverName
  -- Written integers have 64 bits and a sign.
  | notWritable
  | unreadable (path : String) (cause : FileError)
deriving DecidableEq, Repr

def Problem.message : Problem → String
  | notDocument => "Failed to parse config: not a TOML document"
  | wrongType key => "Failed to parse config: wrong type of value for " ++ key
  | noTypePass => "type_passes must be at least 1"
  | noLineBytes => "min_line_bytes must be at least 1"
  | noDriverName => "driver_name is empty"
  | notWritable => "Failed to serialize config: out-of-range value for u64 type"
  | unreadable path cause =>
    "Failed to read config " ++ Quoted.text path ++ ": " ++ cause.message

def check (s : Settings) : Option Problem :=
  if s.typePasses = 0 then some .noTypePass
  else if s.minLineBytes = 0 then some .noLineBytes
  else if s.driverName.isEmpty then some .noDriverName
  else none

def withoutSourceText (s : Settings) : Settings := { s with loadSourceText := false }

def field {α : Type} (entries : Toml.Entries) (key : String) (absent : α)
    (read : Toml.Value → Option α) : Except Problem α :=
  match entries.get? key with
  | none => .ok absent
  | some value =>
    match read value with
    | some a => .ok a
    | none => .error (.wrongType key)

def natural? (bound : Nat) : Toml.Value → Option Nat
  | .integer n => if 0 ≤ n ∧ n < bound then some n.toNat else none
  | _ => none

def boolean? : Toml.Value → Option Bool
  | .boolean b => some b
  | _ => none

def text? : Toml.Value → Option String
  | .text s => some s
  | _ => none

def texts? : Toml.Value → Option (List String)
  | .array items => items.mapM text?
  | .tables _ => none
  | _ => none

def ofEntries (entries : Toml.Entries) : Except Problem Settings := do
  let natural (key : String) (bound : Nat) (absent : Nat) : Except Problem Nat :=
    field entries key absent (natural? bound)
  let boolean (key : String) (absent : Bool) := field entries key absent boolean?
  return {
    typePasses := .ofNat (← natural "type_passes" UInt64.size default.typePasses.toNat)
    minLineBytes := .ofNat (← natural "min_line_bytes" UInt32.size default.minLineBytes.toNat)
    maxChildDepth := .ofNat (← natural "max_child_depth" UInt64.size default.maxChildDepth.toNat)
    floatNames := ← boolean "float_name_heuristic" default.floatNames
    loadSourceText := ← boolean "load_source_text" default.loadSourceText
    searchPaths := ← field entries "source_search_paths" default.searchPaths texts?
    pcRegister := .ofNat (← natural "pc_register" UInt16.size default.pcRegister.toNat)
    driverName := ← field entries "driver_name" default.driverName text? }

def ofToml (text : String) : Except Problem Settings := do
  let some entries := Toml.parse? text | throw .notDocument
  let settings ← ofEntries entries
  match settings.check with
  | some problem => throw problem
  | none => return settings

def load (files : FileSystem) (path : String) : Except Problem Settings := do
  match files.read path with
  | .error cause => throw (.unreadable path cause)
  | .ok data =>
    match Utf8.strict data with
    | some text => ofToml text
    | none => throw (.unreadable path .notText)

def isWritable (n : UInt64) : Bool := n ≤ Int64.maxValue.toUInt64

def toToml (s : Settings) : Except Problem String :=
  let line (key value : String) := key ++ " = " ++ value ++ "\n"
  if !isWritable s.typePasses || !isWritable s.maxChildDepth then .error .notWritable
  else .ok (String.join [
    line "type_passes" (toString s.typePasses),
    line "min_line_bytes" (toString s.minLineBytes),
    line "max_child_depth" (toString s.maxChildDepth),
    line "float_name_heuristic" (toString s.floatNames),
    line "load_source_text" (toString s.loadSourceText),
    line "source_search_paths" (Toml.quotedArray s.searchPaths),
    line "pc_register" (toString s.pcRegister),
    line "driver_name" (Toml.quoted s.driverName)])

end Settings

end SourceScope
