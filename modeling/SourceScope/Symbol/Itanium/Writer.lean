import SourceScope.Symbol.Itanium.Node

set_option autoImplicit false

namespace SourceScope.Itanium

inductive Pending where
  | pointer
  | reference
  | rvalueReference
  | qualified (qualifiers : Qualifiers) (type : Node)
  | array (dimension : Option (Piece Node))
  | vector (dimension : String)
  | memberPointer (owner : Node)
  | function (qualifiers : Qualifiers) (reference exceptions : Option Node)
  | parameters (types : List Node)
  -- Parameters in brackets, as all kinds of functions have them.
  | parameterList (types : List Node)

namespace Pending

def isArray : Pending → Bool
  | array _ => true
  | qualified _ type => type.isArray
  | _ => false

def isQualified : Pending → Bool
  | qualified .. => true
  | function qualifiers _ exceptions => !qualifiers.isNone || exceptions.isSome
  | _ => false

def isSuffix : Pending → Bool
  | function qualifiers _ exceptions => !qualifiers.isNone || exceptions.isSome
  | _ => false

def brackets : List Pending → Bool × Bool
  | [] => (false, false)
  | .qualified .. :: _ | .memberPointer _ :: _ => (true, true)
  | .pointer :: _ | .reference :: _ | .rvalueReference :: _ => (true, false)
  | _ :: rest => brackets rest

end Pending

inductive Reference where
  -- What a constructor is named after.
  | leaf (name : Node)
  -- Template arguments by their place; while one of some arguments is written, its number and
  -- their place.
  | arguments (place : Nat) (items : List Node)

structure ScopeEntry where
  reference : Reference
  -- The place of the arguments that are being written, and the number of the current one.
  current : Option (Nat × Nat)

abbrev Scope := List ScopeEntry

namespace Scope

def push (scope : Scope) (reference : Reference) : Scope := ⟨reference, none⟩ :: scope

def pushArguments (scope : Scope) : Option Node → Scope
  | some (.arguments place items) => scope.push (.arguments place items)
  | _ => scope

def writing (scope : Scope) (place index : Nat) : Scope :=
  match scope with
  | [] => []
  | entry :: rest => { entry with current := some (place, index) } :: rest

def leaf? (scope : Scope) : Option Node :=
  scope.findSome? fun entry =>
    match entry.reference with
    | .leaf name => some name
    | .arguments .. => none

def argument? : Scope → (number : Nat) → Option Node
  | [], _ => none
  | entry :: rest, number =>
    match entry.reference with
    | .leaf _ => argument? rest number
    | .arguments place items =>
      match items[number]? with
      | none => argument? rest number
      | some found =>
        match entry.current with
        | some (current, index) => if current = place ∧ index ≤ number then none else some found
        | none => some found

end Scope

structure Text where
  -- In reverse.
  written : List Char
  -- The next one first, each with a number of its own.
  pending : List (Nat × Pending)
  -- The number for what is pending next.
  fresh : Nat
  -- Whether template parameters have no arguments yet.
  isGeneric : Bool
  sawPack : Bool
  -- Whether the next parameter is the object of a member function.
  showsThis : Bool

namespace Text

def empty : Text := ⟨[], [], 0, false, false, false⟩

end Text

abbrev Writer (α : Type) : Type := StateT Text Option α

namespace Writer

def write (text : String) : Writer Unit :=
  modify fun t => { t with written := text.toList.reverse ++ t.written }

def lastWritten : Writer (Option Char) := do return (← get).written.head?

def ensureSpace : Writer Unit := do
  if (← lastWritten) != some ' ' then write " "

def pop : Writer (Option Pending) := do
  match (← get).pending with
  | [] => return none
  | (_, next) :: rest =>
    modify ({ · with pending := rest })
    return some next

def apart (body : Writer Unit) : Writer Unit := do
  let pending := (← get).pending
  modify ({ · with pending := [] })
  body
  modify ({ · with pending })

def commaSeparated : List (Writer Unit) → Writer Unit
  | [] => return
  | [item] => item
  | item :: rest => do
    item
    write ", "
    commaSeparated rest

def around (pending : Pending) (body after : Writer Unit) : Writer Unit := do
  let number := (← get).fresh
  modify fun t => { t with pending := (number, pending) :: t.pending, fresh := number + 1 }
  body
  if ((← get).pending.head?.map (·.1)) == some number then
    let _ ← pop
    after

structure Nested where
  node : Scope → Node → Writer Unit
  pending : Scope → Pending → Writer Unit
  -- Stands before a part that has no parts of its own.
  enter : Writer Unit

namespace Nested

def exhausted : Nested := ⟨fun _ _ => failure, fun _ _ => failure, failure⟩

def flushUpTo (nested : Nested) (scope : Scope) : (count : Nat) → Writer Unit
  | 0 => return
  | count + 1 => do
    match ← pop with
    | none => return
    | some next =>
      nested.pending scope next
      flushUpTo nested scope count

def flush (nested : Nested) (scope : Scope) : Writer Unit := do
  flushUpTo nested scope (← get).pending.length

def flushBeforeUpTo (nested : Nested) (scope : Scope) : (count : Nat) → List (Nat × Pending) →
    Writer Unit
  | 0, kept => modify ({ · with pending := kept.reverse })
  | count + 1, kept => do
    match (← get).pending with
    | [] => modify ({ · with pending := kept.reverse })
    | (number, next) :: rest =>
      modify ({ · with pending := rest })
      if next.isSuffix then flushBeforeUpTo nested scope count ((number, next) :: kept)
      else
        nested.pending scope next
        flushBeforeUpTo nested scope count kept

def flushBefore (nested : Nested) (scope : Scope) : Writer Unit := do
  flushBeforeUpTo nested scope (← get).pending.length []

def piece (nested : Nested) (scope : Scope) : Piece Node → Writer Unit
  | .words text => write text
  | .item node => nested.node scope node
  | .list nodes => commaSeparated (nodes.map (nested.node scope))
  | .bracketed node => do
    write "("
    nested.node scope node
    write ")"

end Nested

end Writer

end SourceScope.Itanium
