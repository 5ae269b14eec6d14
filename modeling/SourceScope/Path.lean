set_option autoImplicit false

namespace SourceScope.Path

def isAbsolute (path : String) : Bool := path.toList.head? == some '/'

def append (base child : String) : String :=
  if isAbsolute child then child
  else
    match base.toList.getLast? with
    | none => child
    | some '/' => base ++ child
    | some _ => base ++ "/" ++ child

def join (compilation directory : Option String) (name : String) : String :=
  append (append (compilation.getD "") (directory.getD "")) name

def components : List Char → List (List Char)
  | [] => [[]]
  | c :: rest =>
    if c = '/' then [] :: components rest
    else
      match components rest with
      | part :: more => (c :: part) :: more
      | [] => [[c]]

def directories (path : String) : List (List Char) := (components path.toList).dropLast

def commonFront : List (List Char) → List (List Char) → List (List Char)
  | a :: as, b :: bs => if a = b then a :: commonFront as bs else []
  | _, _ => []

def sharedDirectories : List String → List (List Char)
  | [] => []
  | path :: rest => rest.foldl (fun shared other => commonFront shared (directories other))
      (directories path)

def sharedText (paths : List String) : List Char :=
  (sharedDirectories paths).flatMap fun directory => directory ++ ['/']

def shorten (paths : List String) : List String :=
  paths.map fun path => String.ofList (path.toList.drop (sharedText paths).length)

def fileName? (path : String) : Option String :=
  match ((components path.toList).filter fun part => part ≠ [] ∧ part ≠ ['.']).getLast? with
  | none => none
  | some part => if part = ['.', '.'] then none else some (String.ofList part)

end SourceScope.Path
