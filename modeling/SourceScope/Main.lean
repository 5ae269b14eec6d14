import SourceScope.CommandLine.Run

set_option autoImplicit false

namespace SourceScope

namespace CommandLine

def fileError : IO.Error → FileError
  | .noFileOrDirectory .. => .notFound
  | .permissionDenied .. => .permissionDenied
  | .inappropriateType _ code _ => if code = 21 then .isADirectory else .notADirectory
  | .otherError code _ => .other code.toNat
  | _ => .other 5

def readFile (path : String) : IO (String × Except FileError (List UInt8)) := do
  try
    let data ← IO.FS.readBinFile path
    return (path, .ok data.toList)
  catch e => return (path, .error (fileError e))

end CommandLine

end SourceScope

open SourceScope in
def main (arguments : List String) : IO UInt32 := do
  let read ← arguments.mapM CommandLine.readFile
  let contents (path : String) := (read.lookup path).getD (.error .notFound)
  let files : FileSystem := ⟨fun path => (contents path).isOk, contents⟩
  let outcome := CommandLine.run files arguments
  IO.print outcome.stdout
  IO.eprint outcome.stderr
  return outcome.exit.toUInt32
