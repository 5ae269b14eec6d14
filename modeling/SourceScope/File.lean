set_option autoImplicit false

namespace SourceScope

inductive FileError where
  | notFound
  | permissionDenied
  | notADirectory
  | isADirectory
  | nameTooLong
  | invalidPath
  | notText
  | other (code : Nat)
deriving DecidableEq, Repr

def FileError.message : FileError → String
  | notFound => "No such file or directory (os error 2)"
  | permissionDenied => "Permission denied (os error 13)"
  | notADirectory => "Not a directory (os error 20)"
  | isADirectory => "Is a directory (os error 21)"
  | nameTooLong => "File name too long (os error 36)"
  | invalidPath => "file name contained an unexpected NUL byte"
  | notText => "stream did not contain valid UTF-8"
  | other code => s!"Input/output error (os error {code})"

structure FileSystem where
  -- Whether there is a file at a path. It need not be one that can be read.
  isFile : String → Bool
  read : String → Except FileError (List UInt8)

structure FileTree where
  files : List (List String × List UInt8)
  -- Directories beside those that hold the files.
  directories : List (List String)
  -- Where paths begin that do not begin at the root.
  start : List String
deriving Repr

namespace FileTree

def isDirectory (tree : FileTree) (place : List String) : Bool :=
  (tree.start :: tree.directories).any place.isPrefixOf ||
    tree.files.any fun (file, _) => place.isPrefixOf file && place.length < file.length

/-- Follows the steps of a path from a directory. A file has no steps below it, not even one that
stays where it is. -/
def walk (tree : FileTree) (place : List String) : List String → Except FileError (List UInt8)
  | [] => .error .isADirectory
  | step :: rest =>
    if step.isEmpty || step == "." then tree.walk place rest
    else if step == ".." then tree.walk place.dropLast rest
    else
      let next := place ++ [step]
      match tree.files.lookup next with
      | some data => if rest.isEmpty then .ok data else .error .notADirectory
      | none =>
        if 255 < step.utf8ByteSize then .error .nameTooLong
        else if tree.isDirectory next then tree.walk next rest
        else .error .notFound

def read (tree : FileTree) (path : String) : Except FileError (List UInt8) :=
  if path.contains '\x00' then .error .invalidPath
  else if path.isEmpty then .error .notFound
  else if 4096 ≤ path.utf8ByteSize then .error .nameTooLong
  else tree.walk (if path.startsWith "/" then [] else tree.start) (path.splitOn "/")

def system (tree : FileTree) : FileSystem := ⟨fun path => (tree.read path).isOk, tree.read⟩

end FileTree

end SourceScope
