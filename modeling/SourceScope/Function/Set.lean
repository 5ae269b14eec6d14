import SourceScope.Function.Basic

set_option autoImplicit false

namespace SourceScope

structure FunctionSet where
  functions : List SourceFunction
  -- Which function an entry became, by the entry's offset.
  entries : List (Nat × FunctionId)
deriving Repr

namespace FunctionSet

def empty : FunctionSet := ⟨[], []⟩

def get? (set : FunctionSet) (id : FunctionId) : Option SourceFunction := set.functions[id]?

def find? (set : FunctionSet) (name : String) : Option FunctionId :=
  set.functions.findIdx? (·.name == name)

def forEntry? (set : FunctionSet) (offset : Nat) : Option FunctionId := set.entries.lookup offset

def size (set : FunctionSet) : Nat := set.functions.length

def insert (set : FunctionSet) (f : SourceFunction) : FunctionId × FunctionSet :=
  let f := f.withInstances
  match set.find? f.name with
  | some id => (id, { set with functions := set.functions.modify id (·.merge f) })
  | none => (set.functions.length, { set with functions := set.functions ++ [f] })

def noteEntry (set : FunctionSet) (offset : Nat) (id : FunctionId) : FunctionSet :=
  { set with entries := (offset, id) :: set.entries }

def toList (set : FunctionSet) : List (FunctionId × SourceFunction) :=
  set.functions.mapIdx fun id f => (id, f)

def ranges (set : FunctionSet) : List CodeRange := set.functions.flatMap (·.ranges)

def smallestEnclosing? (set : FunctionSet) (address : UInt32) : Option FunctionId :=
  let around := set.toList.filterMap fun (id, f) => (f.rangeAt? address).map (·, id)
  (innermost? Prod.fst around).map (·.2)

def startsBefore (a b : CodeRange × FunctionId) : Bool :=
  a.1.first < b.1.first || (a.1.first == b.1.first && a.1.last ≤ b.1.last)

def conflicts (range : CodeRange) (id : FunctionId) (rest : List (CodeRange × FunctionId)) :
    List (FunctionId × FunctionId × CodeRange) :=
  (rest.takeWhile fun (other, _) => other.first ≤ range.last).filterMap fun (other, owner) =>
    if owner ≠ id ∧ range.overlaps other then some (id, owner, other) else none

def allConflicts : List (CodeRange × FunctionId) → List (FunctionId × FunctionId × CodeRange)
  | [] => []
  | (range, id) :: rest => conflicts range id rest ++ allConflicts rest

def overlaps (set : FunctionSet) : List (FunctionId × FunctionId × CodeRange) :=
  let all := set.toList.flatMap fun (id, f) =>
    (f.ranges.filter (!·.inlined)).map fun r => (r, id)
  allConflicts (all.mergeSort startsBefore)

end FunctionSet

end SourceScope
