import SourceScope.CommandLine.Arguments
import SourceScope.CommandLine.Report
import SourceScope.Image.Read
import SourceScope.Model.Build

set_option autoImplicit false

namespace SourceScope

namespace ModelError

def causes (e : ModelError) : List String :=
  e.message ::
    match e with
    | inContext _ cause => cause.causes
    | object text => [text]
    | debugData cause => [cause.message]
    | malformedFrame cause => [cause.message]
    | _ => []

end ModelError

namespace CommandLine

structure Outcome where
  exit : UInt8
  stdout : String
  stderr : String
deriving DecidableEq, Repr

structure Failure where
  context : String
  causes : List String
deriving DecidableEq, Repr

namespace Failure

def indented (front later text : String) : String :=
  front ++ ("\n" ++ later).intercalate (text.splitOn "\n")

def text (failure : Failure) : String :=
  let causes :=
    match failure.causes with
    | [cause] => [indented "    " "    " cause]
    | causes => causes.mapIdx fun i cause => indented s!"    {i}: " "       " cause
  "Error: " ++ failure.context ++ "\n\nCaused by:\n" ++
    String.join (causes.map (· ++ "\n"))

end Failure

def settings (files : FileSystem) : Option String → Except Failure Settings
  | none => .ok .default
  | some path =>
    (Settings.load files path).mapError fun problem =>
      ⟨"Failed to load config " ++ path, (ModelError.settings problem.message).causes⟩

def inspect (files : FileSystem) (path : String) (settingsPath : Option String) :
    Except Failure String := do
  let settings ← settings files settingsPath
  let binary ← (Binary.load Placement.linked files path).mapError fun e =>
    ⟨"Failed to load " ++ path, e.causes⟩
  let model ← (SourceModel.build settings files Opcode.sweep binary).mapError fun e =>
    ⟨"Failed to build source model", e.causes⟩
  return Report.text model

def run (files : FileSystem) (arguments : List String) : Outcome :=
  match Arguments.parse arguments with
  | .help => ⟨0, Arguments.helpText, ""⟩
  | .invalid => ⟨2, "", Arguments.usage⟩
  | .inspect path settingsPath =>
    match inspect files path settingsPath with
    | .ok report => ⟨0, report, ""⟩
    | .error failure => ⟨1, "", failure.text⟩

end CommandLine

end SourceScope
