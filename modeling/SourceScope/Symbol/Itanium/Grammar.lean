import SourceScope.Symbol.Itanium.Parser

set_option autoImplicit false

namespace SourceScope.Itanium

inductive Rule where
  -- A whole name, or a type.
  | mangled
  -- What runs before or after the program for the sake of a name.
  | keyed
  | cloneSuffix
  | encoding
  | special
  | callOffset
  | name
  | nestedName
  | front
  -- One more part of the front of a nested name.
  | frontPart (outer : Option Node)
  | unscopedName
  | templateName
  | localName
  | unqualifiedName
  | operatorName
  | operator
  | constructor
  | tags
  | tag
  | sourceName
  | closure
  | parameters
  | substitution
  | type
  | builtin
  | classType
  | functionType
  | exceptions
  | signature
  | array
  | vector
  | memberPointer
  | templateTemplate
  | decltype
  | templateArguments
  | templateArgument
  | expression
  | initializer
  | functionParameter
  | unresolvedName
  | unresolvedType
  | qualifierLevel
  | simpleId
  | baseUnresolvedName
  | destructorName
  | memberName
  | literal

namespace Rule

abbrev Result : Rule → Type
  | frontPart _ => Option Node
  | tags | initializer | signature => List Node
  | _ => Node

end Rule

structure Grammar where
  rule : (rule : Rule) → Parser rule.Result
  -- Stands before what is read by a rule that uses no others.
  enter : Parser Unit

namespace Grammar

open SourceScope.Itanium.Parser

def exhausted : Grammar := ⟨fun _ => tooDeep, tooDeep⟩

def isIdentifierCharacter (c : Char) : Bool := c.isAlphanum || c == '$' || c == '_' || c == '.'

def isAnonymousNamespace (name : String) : Bool :=
  ["_GLOBAL_.N", "_GLOBAL__N", "_GLOBAL_$N"].any fun start => name.startsWith start

def sourceName (g : Grammar) : Parser Node := do
  let length ← number 10
  if length == 0 then fail
  let characters ← take length
  g.enter
  if !characters.all isIdentifierCharacter then fail
  else
    let name := String.ofList characters
    return .source (if isAnonymousNamespace name then "(anonymous namespace)" else name)

def qualifiers (g : Grammar) : Parser Qualifiers := do
  g.enter
  let isRestrict ← accepts "r"
  let isVolatile ← accepts "V"
  let isConst ← accepts "K"
  return ⟨isConst, isVolatile, isRestrict⟩

def referenceQualifier (g : Grammar) : Parser Node := do
  g.enter
  return .rule [.words (← oneOf [("R", "&"), ("O", "&&")])]

def discriminator (g : Grammar) : Parser Unit := do
  g.enter
  expect "_"
  if ← accepts "_" then
    let n ← number 10
    if n < 10 then fail
    expect "_"
  else discard digit

def ordinal (step : Nat) : Parser Nat := do
  let n ← attempt (number 10)
  expect "_"
  return n.elim 1 (· + step)

def wellKnown (g : Grammar) : Parser Node := do
  g.enter
  oneOf [
    ("St", .wellKnown "std" "std"),
    ("Sa", .wellKnown "std::allocator" "allocator"),
    ("Sb", .wellKnown "std::basic_string" "basic_string"),
    ("Ss", .wellKnown "std::string" "string"),
    ("Si", .wellKnown "std::basic_istream<char, std::char_traits<char> >" "basic_istream"),
    ("So", .wellKnown "std::ostream" "ostream"),
    ("Sd", .wellKnown "std::basic_iostream<char, std::char_traits<char> >" "basic_iostream")]

def sequenceNumber (g : Grammar) : Parser Nat := do
  g.enter
  number 36

def substitution (g : Grammar) : Parser Node := orElse (wellKnown g) do
  expect "S"
  let index ← attempt (sequenceNumber g)
  let node ← entry (index.elim 0 (· + 1))
  expect "_"
  return node

def templateParameter (g : Grammar) : Parser Node := do
  g.enter
  expect "T"
  let index ← attempt (number 10)
  expect "_"
  return .parameter (index.elim 0 (· + 1))

end Grammar

end SourceScope.Itanium
