import SourceScope.Model.Sorted
import SourceScope.Model.Summary

set_option autoImplicit false

namespace SourceScope

namespace Report

def padded (width : Nat) (text : String) : String :=
  text ++ String.ofList (List.replicate (width - text.length) ' ')

def declaration (f : SourceFunction) : String :=
  match f.declarationFile, f.declarationLine with
  | some file, some line => s!"{file}:{line}"
  | _, _ => if f.isStub then "(stub)" else ""

def functionLine (f : SourceFunction) : String :=
  "  " ++ padded 32 f.name ++ " " ++ padded 40 (declaration f) ++ " " ++
    " ".intercalate (f.ranges.map CodeRange.text) ++ "\n"

def globalLine (types : TypeTable) (v : Variable) : String :=
  let type := ((types.get? v.type).map (·.name)).getD "?"
  let address := (v.staticAddress?.map Hex.address).getD "-"
  "  " ++ padded 32 v.name ++ " " ++ padded 24 type ++ " " ++ address ++ "\n"

def text (model : SourceModel) : String :=
  model.summary.text ++ "\n" ++
  "\nfunctions:\n" ++
  String.join ((model.sortedFunctions .file false).map fun (_, f) => functionLine f) ++
  "\nglobals:\n" ++
  String.join (model.variableSet.globals.map (globalLine model.types))

end Report

end SourceScope
