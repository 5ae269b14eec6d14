set_option autoImplicit false

namespace SourceScope.Itanium

structure Qualifiers where
  isConst : Bool
  isVolatile : Bool
  isRestrict : Bool
deriving DecidableEq, Repr

namespace Qualifiers

def none : Qualifiers := ⟨false, false, false⟩

def isNone (q : Qualifiers) : Bool := !q.isConst && !q.isVolatile && !q.isRestrict

end Qualifiers

inductive Piece (Node : Type) where
  | words (text : String)
  | item (node : Node)
  -- Items with commas between them.
  | list (nodes : List Node)
  -- An item in brackets.
  | bracketed (node : Node)

instance {Node : Type} : Coe String (Piece Node) := ⟨.words⟩

instance {Node : Type} : Coe Node (Piece Node) := ⟨.item⟩

inductive Node where
  -- A rule with nothing to it but what it writes.
  | rule (pieces : List (Piece Node))
  | source (name : String)
  -- A name of the standard library with its last part.
  | wellKnown (name leaf : String)
  | operator (spelling : String) (arity : Nat)
  | conversion (type : Node)
  | literalOperator (suffix : Node)
  | vendorOperator (name : Node) (arity : Nat)
  -- Inheriting constructors name the class that they come from.
  | constructor (inherited : Option Node)
  | destructor
  | closure (signature : Node) (number : Nat)
  -- The name of a thing by itself.
  | unqualified (name : Node) (tags : List Node)
  -- A name outside of all classes and namespaces but the standard one.
  | unscoped (inStd : Bool) (name : Node)
  | templateName (name : Node)
  -- The front part of a nested name.
  | within (outer : Option Node) (name : Node)
  | applied (template arguments : Node)
  -- A data member, whose initialiser has names in it.
  | member (outer name : Node)
  -- A nested name, with what a member function that it may name asks of its object.
  | nested (name : Node) (qualifiers : Qualifiers) (reference : Option Node) (showsThis : Bool)
  | name (name : Node)
  | instantiated (template arguments : Node)
  -- What is declared in a function; without a name it is a string.
  | localEntity (function : Node) (name : Option Node)
  -- What is declared in a default argument of a function.
  | inDefault (function name : Node)
  -- Template arguments, which the place where they were read tells from all others.
  | arguments (place : Nat) (items : List Node)
  | pack (items : List Node)
  -- A template parameter by its number.
  | parameter (number : Nat)
  | builtin (name : String)
  | type (shape : Node)
  | classType (keyword : String) (name : Node)
  | templateType (template arguments : Node)
  | vendorType (type name : Node) (arguments : Option Node)
  | qualified (qualifiers : Qualifiers) (type : Node)
  | pointer (type : Node)
  | reference (type : Node)
  | rvalueReference (type : Node)
  | expansion (type : Node)
  | function (types : Node) (qualifiers : Qualifiers) (reference exceptions : Option Node)
  -- Types of a function; the first is that of the result.
  | signature (types : List Node)
  | array (dimension : Option (Piece Node)) (type : Node)
  | vector (dimension : String) (type : Node)
  | memberPointer (owner type : Node)
  | literal (type : Node) (value : String)
  -- An expression that needs no brackets.
  | bare (expression : Node)
  | memberName (name : Node)
  -- A thing that a symbol stands for: a function with its types, or data.
  | encoding (name : Node) (types : Option (List Node))

namespace Node

def isArray : Node → Bool
  | .type (.array ..) => true
  | _ => false

def templateArguments? : Node → Option Node
  | .instantiated _ found => some found
  | .nested (.applied _ found) .. => some found
  | .name inner | .localEntity _ (some inner) | .inDefault _ inner => inner.templateArguments?
  | _ => none

def typeArguments? : Node → Option Node
  | .templateType _ found => some found
  | .vendorType _ _ found => found
  | .pointer inner | .reference inner => inner.typeArguments?
  | _ => none

def leaf? : Node → Option Node
  | .source text => some (.source text)
  | .wellKnown text leaf => if leaf == "std" then none else some (.wellKnown text leaf)
  | .closure types number => some (.closure types number)
  | .within (some outer) inner => inner.leaf?.or outer.leaf?
  | .within none inner | .unqualified inner _ | .unscoped _ inner | .templateName inner
  | .applied inner _ | .member _ inner | .nested inner .. | .name inner | .instantiated inner _
  | .localEntity _ (some inner) | .inDefault _ inner | .type inner | .classType _ inner =>
    inner.leaf?
  | _ => none

def lacksResult : Node → Bool
  | .constructor _ | .destructor | .conversion _ => true
  | .unqualified inner _ | .unscoped _ inner | .within _ inner | .applied inner _
  | .nested inner .. | .name inner => inner.lacksResult
  | _ => false

def isTemplateName : Node → Bool
  | .wellKnown .. | .templateName _ | .within .. => true
  | _ => false

def arity : Node → Nat
  | .operator _ count | .vendorOperator _ count => count
  | _ => 1

end Node

end SourceScope.Itanium
