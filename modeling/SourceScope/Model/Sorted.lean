import SourceScope.Model.Profile

set_option autoImplicit false

namespace SourceScope

inductive LineKey where
  | file
  | function
  | number
  | executions
  | cycles
deriving DecidableEq, Repr

inductive FunctionKey where
  | name
  -- Where the function is declared.
  | file
  | executions
  | cycles
deriving DecidableEq, Repr

namespace SourceModel

def filePath (model : SourceModel) (line : SourceLine) : String :=
  ((model.file? line.file).map (·.path)).getD ""

def functionName (model : SourceModel) (id : FunctionId) : String :=
  ((model.functions.get? id).map (·.name)).getD ""

def comparePlaces (model : SourceModel) (a b : SourceLine) : Ordering :=
  (compare (model.filePath a) (model.filePath b)).then (compare a.number b.number)

def compareLines (model : SourceModel) (key : LineKey) (a b : SourceLine) : Ordering :=
  match key with
  | .file => model.comparePlaces a b
  | .function =>
    (compare (model.functionName a.function) (model.functionName b.function)).then
      (model.comparePlaces a b)
  | .number =>
    (compare a.number b.number).then (compare (model.filePath a) (model.filePath b))
  | .executions =>
    (compare a.counter.executions b.counter.executions).then (model.comparePlaces a b)
  | .cycles => (compare a.counter.cycles b.counter.cycles).then (model.comparePlaces a b)

def compareFunctions (model : SourceModel) (key : FunctionKey)
    (a b : FunctionId × SourceFunction) : Ordering :=
  let names := compare a.2.name b.2.name
  match key with
  | .name => names
  | .file =>
    ((compare a.2.declarationFile b.2.declarationFile).then
      (compare a.2.declarationLine b.2.declarationLine)).then names
  | .executions =>
    (compare (model.functionCounter a.1).executions (model.functionCounter b.1).executions).then
      names
  | .cycles =>
    (compare (model.functionCounter a.1).cycles (model.functionCounter b.1).cycles).then names

def precedes {α : Type} (order : α → α → Ordering) (descending : Bool) (a b : α) : Bool :=
  if descending then (order a b).isGE else (order a b).isLE

def sortedLines (model : SourceModel) (key : LineKey) (descending : Bool) : List SourceLine :=
  (model.listing.lines.toList.filter (·.hasCode)).mergeSort
    (precedes (model.compareLines key) descending)

def sortedFunctions (model : SourceModel) (key : FunctionKey) (descending : Bool) :
    List (FunctionId × SourceFunction) :=
  model.functions.toList.mergeSort (precedes (model.compareFunctions key) descending)

end SourceModel

end SourceScope
