import SourceScope.Symbol.Itanium.Name

set_option autoImplicit false

namespace SourceScope.Itanium

namespace Grammar

open SourceScope.Itanium.Parser

def simpleBuiltins : List (String × String) := [
  ("v", "void"), ("w", "wchar_t"), ("b", "bool"), ("c", "char"), ("a", "signed char"),
  ("h", "unsigned char"), ("s", "short"), ("t", "unsigned short"), ("i", "int"),
  ("j", "unsigned int"), ("l", "long"), ("m", "unsigned long"), ("x", "long long"),
  ("y", "unsigned long long"), ("n", "__int128"), ("o", "unsigned __int128"), ("f", "float"),
  ("d", "double"), ("e", "long double"), ("g", "__float128"), ("z", "..."), ("Dd", "decimal64"),
  ("De", "decimal128"), ("Df", "decimal32"), ("Dh", "half"), ("DF16b", "std::bfloat16_t"),
  ("Di", "char32_t"), ("Ds", "char16_t"), ("Du", "char8_t"), ("Da", "auto"),
  ("Dc", "decltype(auto)"), ("Dn", "std::nullptr_t")]

def fixedPointBuiltins : List (String × String) :=
  [("DS", "_Sat "), ("", "")].flatMap fun (saturation, front) =>
    [("DA", "_Accum"), ("DR", "_Fract")].flatMap fun (kind, name) =>
      [("s", "short "), ("t", "unsigned short "), ("i", ""), ("j", "unsigned "), ("l", "long "),
        ("m", "unsigned long ")].map fun (size, adjective) =>
        (saturation ++ kind ++ size, front ++ adjective ++ name)

def sizedBuiltin (g : Grammar) : Parser Node := do
  g.enter
  firstOf [
    do
      expect "DF"
      let bits ← number 10
      if ← accepts "x" then return .builtin s!"_Float{bits}x"
      expect "_"
      return .builtin s!"_Float{bits}",
    do
      let sign ← oneOf [("DB", "signed"), ("DU", "unsigned")]
      let bits ← number 10
      expect "_"
      return .builtin s!"{sign} _BitInt({bits})"]

def builtin (g : Grammar) : Parser Node := firstOf [
  do
    g.enter
    return .builtin (← oneOf (simpleBuiltins ++ fixedPointBuiltins)),
  sizedBuiltin g,
  do
    expect "u"
    return .rule [.item (← g.rule .sourceName)]]

def classType (g : Grammar) : Parser Node :=
  branch (g.rule .name) (fun name => return .classType "" name) do
    let keyword ← oneOf [("Ts", "class "), ("Tu", "union "), ("Te", "enum ")]
    return .classType keyword (← g.rule .name)

def exceptions (g : Grammar) : Parser Node :=
  branch (expect "Do") (fun _ => return .rule ["noexcept"]) do
    expect "DO"
    let condition ← g.rule .expression
    expect "E"
    return .rule ["noexcept(", condition, ")"]

def functionType (g : Grammar) : Parser Node := do
  let qualifiers ← qualifiers g
  let exceptions ← attempt (g.rule .exceptions)
  let _ ← accepts "Dx"
  expect "F"
  let _ ← accepts "Y"
  let types ← g.rule .signature
  let reference ← attempt (referenceQualifier g)
  expect "E"
  return .function (.signature types) qualifiers reference exceptions

def array (g : Grammar) : Parser Node :=
  let of (dimension : Option (Piece Node)) : Parser Node := do
    expect "_"
    return .array dimension (← g.rule .type)
  do
    expect "A"
    branch (number 10) (fun n => of (some (toString n : String))) <|
      branch (g.rule .expression) (fun n => of (some n)) (of none)

def vector (g : Grammar) : Parser Node := do
  expect "Dv"
  let dimension ← number 10
  expect "_"
  return .vector (toString dimension) (← g.rule .type)

def memberPointer (g : Grammar) : Parser Node := do
  expect "M"
  let owner ← g.rule .type
  return .memberPointer owner (← g.rule .type)

def decltype (g : Grammar) : Parser Node := do
  oneOf [("DT", ()), ("Dt", ())]
  let expression ← g.rule .expression
  expect "E"
  return .rule ["decltype (", expression, ")"]

def substitutedType (g : Grammar) : Parser Node := do
  let node ← g.rule .substitution
  if (← peek) == some 'I' then fail else return node

def parameterType (g : Grammar) : Parser Node := do
  let parameter ← templateParameter g
  if (← peek) != some 'I' then return .type parameter
  else if ← isInConversion then
    match ← lookahead (g.rule .templateArguments) with
    | some rest => if rest.head? == some 'I' then fail else return .type parameter
    | none => fail
  else fail

def templateTemplate (g : Grammar) : Parser Node :=
  orElse (g.rule .substitution) do note (.rule [.item (← templateParameter g)])

def wrappers : List (String × (Node → Node)) := [
  ("P", .pointer), ("R", .reference), ("O", .rvalueReference),
  ("C", fun type => .rule [type, " complex"]), ("G", fun type => .rule [type, " imaginary"])]

def vendorType (g : Grammar) : Parser Node := do
  let name ← g.rule .sourceName
  let arguments ← attempt (g.rule .templateArguments)
  return .vendorType (← g.rule .type) name arguments

def qualifiedType (g : Grammar) (otherwise : Parser Node) : Parser Node :=
  branch
    (do
      let qualifiers ← qualifiers g
      if qualifiers.isNone then fail else return qualifiers)
    (fun qualifiers => do note (.qualified qualifiers (← g.rule .type)))
    otherwise

def type (g : Grammar) : Parser Node :=
  let shape (found : Node) : Parser Node := note (.type found)
  branch (g.rule .builtin) pure <|
  branch (g.rule .classType) shape <|
  branch (substitutedType g) pure <|
  branch (g.rule .functionType) shape <|
  branch (g.rule .array) shape <|
  branch (g.rule .vector) shape <|
  branch (g.rule .memberPointer) shape <|
  branch (parameterType g) note <|
  branch (g.rule .templateTemplate)
    (fun template => do note (.templateType template (← g.rule .templateArguments))) <|
  branch (g.rule .decltype) shape <|
  qualifiedType g <|
  branch (oneOf wrappers) (fun wrap => do note (wrap (← g.rule .type))) <|
  branch (expect "U") (fun _ => do note (← vendorType g)) do
    expect "Dp"
    note (.expansion (← g.rule .type))

end Grammar

end SourceScope.Itanium
