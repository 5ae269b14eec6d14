import SourceScope.Code.Range
import SourceScope.Location.Basic

set_option autoImplicit false

namespace SourceScope

abbrev FunctionId := Nat

structure SourceFunction where
  name : String
  ranges : List CodeRange
  -- Frame base of the copy that is not inlined, if there is one.
  frameBase : Option Location
  -- Frame bases with the ranges they came with; an inlined copy runs in its caller's frame.
  instances : List (CodeRange × Location)
  declarationFile : Option String
  declarationLine : Option UInt32
  -- Whether it is known from the symbol table only.
  isStub : Bool
deriving DecidableEq, Repr

def innermost? {α : Type} (rangeOf : α → CodeRange) : List α → Option α
  | [] => none
  | a :: rest =>
    match innermost? rangeOf rest with
    | none => some a
    | some b =>
      let r := rangeOf a
      let s := rangeOf b
      if r.size < s.size ∨ (r.size = s.size ∧ (r.inlined ∨ !s.inlined)) then some a else some b

namespace SourceFunction

def stub (name : String) (ranges : List CodeRange) : SourceFunction :=
  ⟨name, ranges, none, [], none, none, true⟩

def contains (f : SourceFunction) (address : UInt32) : Bool := f.ranges.any (·.contains address)

def rangeAt? (f : SourceFunction) (address : UInt32) : Option CodeRange :=
  innermost? id (f.ranges.filter (·.contains address))

def frameBaseAt? (f : SourceFunction) (address : UInt32) : Option Location :=
  match innermost? Prod.fst (f.instances.filter (·.1.contains address)) with
  | some (_, location) => some location
  | none => f.frameBase

def addRange (ranges : List CodeRange) (range : CodeRange) : List CodeRange :=
  if ranges.contains range then ranges else ranges ++ [range]

def addInstance (instances : List (CodeRange × Location)) (range : CodeRange)
    (location : Location) : List (CodeRange × Location) :=
  if instances.any (·.1 == range) then instances else instances ++ [(range, location)]

def withInstances (f : SourceFunction) : SourceFunction :=
  match f.frameBase with
  | none => f
  | some location =>
    { f with instances := f.ranges.foldl (fun found r => addInstance found r location) f.instances }

/-- A function that takes in another one of its name. Frame bases stay with the ranges they came
with; the function's own is that of a copy that is not inlined, when there is one. -/
def merge (f other : SourceFunction) : SourceFunction :=
  let inlinedOnly := f.ranges.all (·.inlined)
  let outOfLine := other.ranges.any (!·.inlined)
  let takesFrameBase :=
    other.frameBase.isSome && (f.frameBase.isNone || (inlinedOnly && outOfLine))
  { f with
    ranges := other.ranges.foldl addRange f.ranges
    instances := other.instances.foldl (fun found (r, l) => addInstance found r l) f.instances
    frameBase := if takesFrameBase then other.frameBase else f.frameBase
    declarationFile := if f.declarationLine.isNone then other.declarationFile else f.declarationFile
    declarationLine := if f.declarationLine.isNone then other.declarationLine else f.declarationLine }

end SourceFunction

end SourceScope
