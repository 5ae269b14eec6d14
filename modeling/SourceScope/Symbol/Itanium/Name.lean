import SourceScope.Symbol.Itanium.Grammar

set_option autoImplicit false

namespace SourceScope.Itanium

namespace Grammar

open SourceScope.Itanium.Parser

def operators : List (String × String × Nat) := [
  ("nw", "new", 3), ("na", "new[]", 3), ("dl", "delete", 1), ("da", "delete[]", 1),
  ("ps", "+", 1), ("ng", "-", 1), ("ad", "&", 1), ("de", "*", 1), ("co", "~", 1),
  ("pl", "+", 2), ("mi", "-", 2), ("ml", "*", 2), ("dv", "/", 2), ("rm", "%", 2), ("an", "&", 2),
  ("or", "|", 2), ("eo", "^", 2), ("aS", "=", 2), ("pL", "+=", 2), ("mI", "-=", 2),
  ("mL", "*=", 2), ("dV", "/=", 2), ("rM", "%=", 2), ("aN", "&=", 2), ("oR", "|=", 2),
  ("eO", "^=", 2), ("ls", "<<", 2), ("rs", ">>", 2), ("lS", "<<=", 2), ("rS", ">>=", 2),
  ("eq", "==", 2), ("ne", "!=", 2), ("lt", "<", 2), ("gt", ">", 2), ("le", "<=", 2),
  ("ge", ">=", 2), ("ss", "<=>", 2), ("nt", "!", 1), ("aa", "&&", 2), ("oo", "||", 2),
  ("pp", "++", 1), ("mm", "--", 1), ("cm", ",", 2), ("pm", "->*", 2), ("pt", "->", 2),
  ("cl", "()", 2), ("ix", "[]", 2), ("qu", "?:", 3)]

def simpleOperator (g : Grammar) : Parser Node := do
  g.enter
  let (spelling, count) ← oneOf operators
  return .operator spelling count

def operator (g : Grammar) : Parser Node := firstOf [
  simpleOperator g,
  do expect "cv"; return .conversion (← inConversion (g.rule .type)),
  do expect "li"; return .literalOperator (← g.rule .sourceName),
  do
    expect "v"
    let count ← digit
    return .vendorOperator (← g.rule .sourceName) count]

def constructorFrom (g : Grammar) (inherits : Bool) : Parser Node := do
  if inherits then return .constructor (some (← g.rule .type)) else return .constructor none

def constructor (g : Grammar) : Parser Node := firstOf [
  do
    expect "C"
    let inherits ← accepts "I"
    oneOf (["1", "2", "3", "4"].map (·, ()))
    constructorFrom g inherits,
  do
    expect "D"
    oneOf (["0", "1", "2", "4"].map (·, ()))
    return .destructor]

def parameters (g : Grammar) : Parser Node := do
  let types ← if ← accepts "v" then pure [] else manyOne (g.rule .type)
  return .rule [.list types]

def closure (g : Grammar) : Parser Node := do
  expect "Ul"
  let parameters ← g.rule .parameters
  expect "E"
  return .closure parameters (← ordinal 2)

def unnamed (g : Grammar) : Parser Node := do
  g.enter
  expect "Ut"
  return .rule [s!"\x7bunnamed type#{← ordinal 1}\x7d"]

def tag (g : Grammar) : Parser Node := do
  expect "B"
  return .rule ["[abi:", ← g.rule .sourceName, "]"]

def tags (g : Grammar) : Parser (List Node) := many (g.rule .tag)

def unitLocalName (g : Grammar) : Parser Node := do
  let name ← g.rule .sourceName
  let _ ← attempt (discriminator g)
  return name

def unqualifiedName (g : Grammar) : Parser Node :=
  let tagged (name : Node) : Parser Node := do return .unqualified name (← g.rule .tags)
  branch (g.rule .operatorName) tagged <|
  branch (g.rule .constructor) tagged <|
  branch (expect "L") (fun _ => do tagged (← unitLocalName g)) <|
  branch (g.rule .sourceName) tagged <|
  branch (g.rule .closure) tagged <|
  do tagged (← unnamed g)

def noteUnlessLast (node : Node) : Parser Node := do
  if (← peek) == some 'E' then return node else note node

def beginsName (c : Char) : Bool := c.isDigit || "LCDUclvndpamroesgiq".toList.contains c

def frontPart (g : Grammar) (outer : Option Node) : Parser (Option Node) := do
  let noted (node : Node) : Parser (Option Node) := do return some (← noteUnlessLast node)
  let unqualified : Parser (Option Node) := do
    noted (.within outer (← g.rule .unqualifiedName))
  match ← peek with
  | none | some 'E' => return none
  | some 'S' => return some (← g.rule .substitution)
  | some 'T' => noted (.within none (← templateParameter g))
  | some 'D' => branch (g.rule .decltype) (fun type => noted (.rule [type])) unqualified
  | some c =>
    match outer with
    | none => if beginsName c then unqualified else return none
    | some template =>
      if c == 'I' && template.isTemplateName then
        noted (.applied template (← g.rule .templateArguments))
      else if c.isDigit then
        let name ← g.rule .sourceName
        if (← peek) == some 'M' then
          let found ← note (.member template name)
          expect "M"
          return some found
        else noted (.within outer (.unqualified name (← g.rule .tags)))
      else if beginsName c then unqualified
      else return none

def front (g : Grammar) : Parser Node := do
  match ← iterate (fun outer => do return (← g.rule (.frontPart outer)).map some) none with
  | some node => return node
  | none => fail

def nestedName (g : Grammar) : Parser Node := do
  expect "N"
  let showsThis ← accepts "H"
  let qualifiers ← if showsThis then pure .none else qualifiers g
  let reference ← if showsThis then pure none else attempt (referenceQualifier g)
  let name ← g.rule .front
  expect "E"
  match name with
  | .within (some _) _ | .applied .. => return .nested name qualifiers reference showsThis
  | _ => fail

def localName (g : Grammar) : Parser Node := do
  expect "Z"
  let function ← g.rule .encoding
  expect "E"
  if ← accepts "s" then
    let _ ← attempt (discriminator g)
    return .localEntity function none
  else if ← accepts "d" then
    let _ ← attempt (do g.enter; integer)
    expect "_"
    return .inDefault function (← g.rule .name)
  else
    let name ← g.rule .name
    let _ ← attempt (discriminator g)
    return .localEntity function (some name)

def unscopedName (g : Grammar) : Parser Node := do
  let inStd ← accepts "St"
  return .unscoped inStd (← g.rule .unqualifiedName)

def name (g : Grammar) : Parser Node :=
  branch (g.rule .nestedName) (fun found => return .name found) <|
  branch (g.rule .unscopedName)
    (fun found => do
      if (← peek) == some 'I' then
        return .instantiated (← note (.templateName found)) (← g.rule .templateArguments)
      else return .name found) <|
  branch (g.rule .templateName)
    (fun template => do return .instantiated template (← g.rule .templateArguments)) <|
  do return .name (← g.rule .localName)

end Grammar

end SourceScope.Itanium
