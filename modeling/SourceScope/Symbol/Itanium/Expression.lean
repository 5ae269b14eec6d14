import SourceScope.Symbol.Itanium.Type

set_option autoImplicit false

namespace SourceScope.Itanium

namespace Grammar

open SourceScope.Itanium.Parser

def operand : Node → Piece Node
  | .bare expression => .item (.bare expression)
  | expression => .bracketed expression

def functionParameter (g : Grammar) : Parser Node := do
  expect "f"
  if ← accepts "L" then
    let _ ← number 10
  expect "p"
  let _ ← qualifiers g
  if ← accepts "T" then return .rule ["this"]
  else return .rule [s!"\x7bparm#{← ordinal 2}\x7d"]

def literal (g : Grammar) : Parser Node := do
  expect "L"
  branch (g.rule .type)
    (fun type => do
      let value ← takeWhile (· != 'E')
      expect "E"
      return .literal type (String.ofList value))
    do
      let symbol ← g.rule .mangled
      expect "E"
      return .rule [symbol]

def withArguments (g : Grammar) (name : Node) : Parser Node := do
  match ← attempt (g.rule .templateArguments) with
  | none => return .rule [name]
  | some arguments => return .rule [name, arguments]

def simpleId (g : Grammar) : Parser Node := do withArguments g (← g.rule .sourceName)

def unresolvedType (g : Grammar) : Parser Node :=
  branch (templateParameter g) (fun parameter => do note (← withArguments g parameter)) <|
  branch (g.rule .decltype) (fun type => note (.rule [type])) <|
  g.rule .substitution

def baseUnresolvedName (g : Grammar) : Parser Node :=
  branch (g.rule .simpleId) (fun name => return .rule [name]) <|
  branch (expect "on") (fun _ => do withArguments g (← g.rule .operatorName)) do
    expect "dn"
    return .rule [.item (← g.rule .destructorName)]

def destructorName (g : Grammar) : Parser Node := do
  return .rule ["~", ← orElse (g.rule .unresolvedType) (g.rule .simpleId)]

def levels (g : Grammar) : Parser (List (Piece Node)) := do
  let found ← manyOne (g.rule .qualifierLevel)
  expect "E"
  return found.flatMap fun level => [.item level, .words "::"]

def unresolvedName (g : Grammar) : Parser Node :=
  let base (front : List (Piece Node)) : Parser Node := do
    return .rule (front ++ [.item (← g.rule .baseUnresolvedName)])
  branch (expect "gs")
    (fun _ => orElse (base ["::"]) do
      expect "sr"
      base ("::" :: (← levels g))) <|
  orElse (base []) do
    expect "sr"
    if ← accepts "N" then
      let outer ← g.rule .unresolvedType
      base (outer :: "::" :: (← levels g))
    else
      branch (g.rule .unresolvedType) (fun outer => base [outer, "::"]) do base (← levels g)

def expressions (g : Grammar) (close : String) : Parser (Piece Node) := do
  let found ← many (g.rule .expression)
  expect close
  return .list found

def initializer (g : Grammar) : Parser (List Node) := do
  expect "pi"
  let found ← many (g.rule .expression)
  expect "E"
  return found

def newObject (g : Grammar) (word : String) : Parser Node := do
  let place ← expressions g "_"
  let type ← g.rule .type
  let begins ← if ← accepts "E" then pure []
    else pure [.item (.rule ["(", .list (← g.rule .initializer), ")"])]
  return .rule ([.words (word ++ " ("), place, ") ", type] ++ begins)

def allocation (g : Grammar) (front : String) : Parser Node :=
  branch (oneOf [("nw", "new"), ("na", "new[]")]) (fun word => newObject g (front ++ word)) do
    let word ← oneOf [("dl", "delete "), ("da", "delete[] ")]
    return .rule [.words (front ++ word), ← g.rule .expression]

def keywords (g : Grammar) : List (String × Parser Node) :=
  let cast (word : String) : Parser Node := do
    let type ← g.rule .type
    return .rule [.words (word ++ "<"), type, ">(", ← g.rule .expression, ")"]
  let ofType (word : String) : Parser Node := do
    return .rule [.words (word ++ " ("), ← g.rule .type, ")"]
  let ofExpression (word : String) : Parser Node := do
    return .rule [.words (word ++ " ("), ← g.rule .expression, ")"]
  let member (sign : String) : Parser Node := do
    let object ← g.rule .expression
    return .rule [operand object, .words sign, ← g.rule .memberName]
  [("cl", do
      let function ← g.rule .expression
      return .rule [.item (.rule [operand function, "(", ← expressions g "E", ")"])]),
    ("cv", do
      let type ← g.rule .type
      if ← accepts "_" then return .rule [type, "(", ← expressions g "E", ")"]
      else return .rule ["(", type, ")(", ← g.rule .expression, ")"]),
    ("tl", do
      let type ← g.rule .type
      return .rule [type, "\x7b", ← expressions g "E", "\x7d"]),
    ("il", do
      let found ← g.rule .expression
      expect "E"
      return .rule ["\x7b", found, "\x7d"]),
    ("dc", cast "dynamic_cast"), ("sc", cast "static_cast"), ("cc", cast "const_cast"),
    ("rc", cast "reinterpret_cast"), ("ti", ofType "typeid"), ("te", ofExpression "typeid"),
    ("st", ofType "sizeof"), ("sz", ofExpression "sizeof"), ("at", ofType "alignof"),
    ("az", ofExpression "alignof"), ("nx", ofExpression "noexcept"), ("dt", member "."),
    ("pt", member "->"),
    ("ds", do
      let object ← g.rule .expression
      return .rule [operand object, ".*", operand (← g.rule .expression)]),
    ("so", do
      let type ← g.rule .type
      let whole ← g.rule .expression
      let offset ← attempt integer
      expect "E"
      return .rule [whole, ".<", type, s!" at offset {offset.getD 0}>"]),
    ("sZ", do
      let pack ← orElse (templateParameter g) (g.rule .functionParameter)
      return .rule ["sizeof...(", pack, ")"]),
    ("sP", do
      let found ← many (g.rule .templateArgument)
      expect "E"
      return .rule ["sizeof...(", .list found, ")"]),
    ("sp", do return .rule [operand (← g.rule .expression), "..."]),
    ("tw", do return .rule ["throw ", ← g.rule .expression]),
    ("tr", return .rule ["throw"])]

def operation (g : Grammar) : Parser Node := do
  let operator ← g.rule .operator
  let first ← g.rule .expression
  match operator.arity with
  | 1 =>
    match operator with
    -- these stand in front of an operand only where an underscore follows them
    | .operator "++" _ => return .rule [operand first, "++"]
    | .operator "--" _ => return .rule [operand first, "--"]
    | _ => return .rule [operator, operand first]
  | 2 =>
    let second ← g.rule .expression
    match operator with
    | .operator "[]" _ => return .rule [operand first, "[", second, "]"]
    -- outside of brackets it could end the arguments of a template
    | .operator ">" _ => return .rule ["((", first, ")>(", second, "))"]
    | _ => return .rule [operand first, operator, operand second]
  | 3 =>
    let second ← g.rule .expression
    let third ← g.rule .expression
    match operator with
    | .operator "?:" _ =>
      return .rule [operand first, "?", operand second, " : ", operand third]
    | _ =>
      return .rule [operator, "(", operand first, ", ", operand second, ", ", operand third, ")"]
  | _ => fail

def simpleExpression (g : Grammar) : Parser Node :=
  branch (allocation g "") pure <|
  branch (templateParameter g) (fun found => return .rule [found]) <|
  branch (g.rule .functionParameter) (fun found => return .bare found) <|
  branch (g.rule .unresolvedName) (fun found => return .rule [found]) <|
  branch (g.rule .literal)
    (fun found =>
      match found with
      | .literal .. => return .rule [found]
      | _ => return .bare found) <|
  operation g

def expression (g : Grammar) : Parser Node :=
  branch (oneOf [("pp_", "++"), ("mm_", "--")])
    (fun sign => do return .rule [.words sign, ← g.rule .expression]) <|
  branch (oneOf (keywords g)) id <|
  orElse (do expect "gs"; allocation g "::") (simpleExpression g)

def memberName (g : Grammar) : Parser Node := do return .memberName (← g.rule .name)

def templateArgument (g : Grammar) : Parser Node :=
  let one (found : Node) : Parser Node := return .rule [found]
  branch (expect "X")
    (fun _ => do
      let found ← g.rule .expression
      expect "E"
      one found) <|
  branch (g.rule .literal) one <|
  branch (g.rule .type) one do
    oneOf [("J", ()), ("I", ())]
    let found ← many (g.rule .templateArgument)
    expect "E"
    return .pack found

def templateArguments (g : Grammar) : Parser Node := do
  let place ← place
  expect "I"
  let found ← manyOne (g.rule .templateArgument)
  expect "E"
  return .arguments place found

end Grammar

end SourceScope.Itanium
