import SourceScope.Symbol.Itanium.Writer

set_option autoImplicit false

namespace SourceScope.Itanium

namespace Writer.Nested

def words (nested : Nested) (text : String) : Writer Unit := do
  nested.enter
  write text

def qualifiers (nested : Nested) (q : Qualifiers) : Writer Unit := do
  if !q.isNone then
    nested.enter
    for (isThere, word) in [(q.isConst, "const"), (q.isVolatile, "volatile"),
        (q.isRestrict, "restrict")] do
      if isThere then
        ensureSpace
        write word

def spaced (nested : Nested) (scope : Scope) : Option Node → Writer Unit
  | none => return
  | some node => do
    ensureSpace
    nested.node scope node

def isWord (spelling : String) : Bool := spelling.toList.head?.any Char.isAlpha

def isOperator : Node → Bool
  | .operator .. | .conversion _ | .literalOperator _ | .vendorOperator .. => true
  | _ => false

def arguments (nested : Nested) (scope : Scope) (place : Nat) (items : List Node) : Writer Unit :=
  apart do
    if (← lastWritten) == some '<' then write " "
    write "<"
    commaSeparated (items.mapIdx fun i item => nested.node (scope.writing place i) item)
    if (← lastWritten) == some '>' then write " "
    write ">"

def asLeaf : Node → Node
  | .wellKnown _ leaf => .source leaf
  | node => node

def leaf (nested : Nested) (scope : Scope) (node : Option Node) : Writer Unit :=
  match node with
  | none => failure
  | some node => nested.node scope (asLeaf node)

def signed (value : String) : String × String :=
  match value.toList with
  | 'n' :: digits => ("-", String.ofList digits)
  | _ => ("", value)

def literal (nested : Nested) (scope : Scope) (type : Node) (value : String) : Writer Unit := do
  let (sign, digits) := signed value
  let withType (text : String) : Writer Unit := do
    write "("
    nested.node scope type
    write (")" ++ text)
  match type, value with
  | .builtin "bool", "0" => write "false"
  | .builtin "bool", "1" => write "true"
  | .builtin "std::nullptr_t", _ => write "nullptr"
  | .builtin "int", _ => write (sign ++ digits)
  | .builtin "float", _ | .builtin "double", _ => withType s!"{sign}[{digits}]"
  | _, _ => withType (sign ++ digits)

def function (nested : Nested) (scope : Scope) (name : Node) (types : List Node) : Writer Unit := do
  let scope := match name.leaf? with
    | some leaf => scope.push (.leaf leaf)
    | none => scope
  let named (scope : Scope) (parameters : List Node) : Writer Unit :=
    around (.parameters parameters) (nested.node scope name)
      (nested.pending scope (.parameters parameters))
  match name.templateArguments? with
  | none => named scope types
  | some arguments =>
    let scope := scope.pushArguments (some arguments)
    match types with
    | [] => failure
    | result :: parameters =>
      if !name.lacksResult then
        nested.node scope result
        write " "
      named scope parameters

def closure (nested : Nested) (scope : Scope) (signature : Node) (number : Nat) : Writer Unit := do
  let isGeneric := (← get).isGeneric
  write "\x7blambda("
  modify ({ · with isGeneric := true })
  apart (nested.node scope signature)
  modify ({ · with isGeneric })
  write s!")#{number}\x7d"

def nestedName (nested : Nested) (scope : Scope) (name : Node) (q : Qualifiers)
    (reference : Option Node) (showsThis : Bool) : Writer Unit := do
  match name with
  | .within (some outer) name =>
    nested.node scope outer
    write "::"
    nested.node scope name
  | name => nested.node scope name
  if showsThis then modify ({ · with showsThis := true })
  match ← pop with
  | some next => nested.pending scope next
  | none => pure ()
  qualifiers nested q
  spaced nested scope reference

def writeNode (nested : Nested) (scope : Scope) (node : Node) : Writer Unit :=
  let withPending (pending : Pending) (type : Node) : Writer Unit :=
    around pending (nested.node scope type) (nested.pending scope pending)
  match node with
  | .rule pieces => pieces.forM (piece nested scope)
  | .source text | .builtin text => words nested text
  | .wellKnown text _ => write text
  | .operator spelling _ => do
    if isWord spelling then ensureSpace
    words nested spelling
  | .conversion type => do
    ensureSpace
    nested.node (scope.pushArguments type.typeArguments?) type
  | .literalOperator suffix => do
    nested.node scope suffix
    write "::operator \"\""
  | .vendorOperator name count => do
    nested.node scope name
    write s!"::operator {count}"
  | .constructor none => leaf nested scope scope.leaf?
  | .constructor (some type) => leaf nested scope (scope.leaf?.bind fun _ => type.leaf?)
  | .destructor => do
    write "~"
    leaf nested scope scope.leaf?
  | .closure signature number => closure nested scope signature number
  | .unqualified name tags => do
    if isOperator name then write "operator"
    nested.node scope name
    tags.forM (nested.node scope)
  | .unscoped inStd name => do
    if inStd then write "std::"
    nested.node scope name
  | .within none inner | .templateName inner | .name inner | .type inner | .bare inner =>
    nested.node scope inner
  | .within (some outer) name => do
    nested.node scope outer
    write "::"
    nested.node scope name
  | .applied template arguments | .templateType template arguments => do
    nested.node scope template
    nested.node scope arguments
  | .member outer name => do
    nested.node scope outer
    write "::"
    nested.node scope (.rule [name])
  | .nested name q reference showsThis => nestedName nested scope name q reference showsThis
  | .instantiated template arguments => do
    nested.node (scope.pushArguments (some arguments)) template
    nested.node scope arguments
  | .localEntity function name => do
    nested.node scope function
    write "::"
    match name with
    | none => write "string literal"
    | some name => nested.node scope name
  | .inDefault function _ => nested.node scope function
  | .arguments place items => arguments nested scope place items
  | .pack items => do
    modify ({ · with sawPack := true })
    commaSeparated (items.map (nested.node scope))
  | .parameter number => do
    if (← get).isGeneric then write s!"auto:{number + 1}"
    else
      match scope.argument? number with
      | none => failure
      | some argument => nested.node scope argument
  | .classType keyword name => do
    write keyword
    nested.node scope name
  | .vendorType type name arguments => do
    nested.node scope type
    write " "
    nested.node scope name
    arguments.forM (nested.node scope)
  | .qualified q type => withPending (.qualified q type) type
  | .pointer type => withPending .pointer type
  | .reference type => withPending .reference type
  | .rvalueReference type => withPending .rvalueReference type
  | .expansion type => do
    nested.node scope type
    if !(← get).sawPack then write "..."
  | .function types q reference exceptions => withPending (.function q reference exceptions) types
  | .signature [] => failure
  | .signature (result :: parameters) =>
    around (.parameters parameters) (nested.node scope result) do
      ensureSpace
      nested.pending scope (.parameters parameters)
  | .array dimension type => withPending (.array dimension) type
  | .vector dimension type => withPending (.vector dimension) type
  | .memberPointer owner type => withPending (.memberPointer owner) type
  | .literal type value => literal nested scope type value
  | .memberName name => do
    let isInstance := name.templateArguments?.isSome
    if isInstance then write "("
    nested.node scope name
    if isInstance then write ")"
  | .encoding name none => apart (nested.node scope name)
  | .encoding name (some types) => apart (function nested scope name types)

def collapse (isReference : Bool) : (count : Nat) → Writer Bool
  | 0 => return isReference
  | count + 1 => do
    match (← get).pending with
    | (_, .rvalueReference) :: _ =>
      let _ ← pop
      collapse isReference count
    | (_, .reference) :: _ =>
      if isReference then
        let _ ← pop
        collapse isReference count
      else return false
    | _ => return true

def parameterTypes (nested : Nested) (scope : Scope) (types : List Node) : Writer Unit :=
  commaSeparated <| types.map fun type => do
    if (← get).showsThis then
      write "this "
      modify ({ · with showsThis := false })
    nested.node scope type

def parameterList (nested : Nested) (scope : Scope) (types : List Node) : Writer Unit := do
  let (bracketed, spaced) := Pending.brackets ((← get).pending.map (·.2))
  if bracketed then
    let last ← lastWritten
    if spaced || !(last == some '(' || last == some '*') then ensureSpace
    write "("
  flushBefore nested scope
  if bracketed then write ")"
  write "("
  match types with
  | [.builtin "void"] => write ")"
  | types =>
    parameterTypes nested scope types
    write ")"
    flush nested scope

def aroundArray (nested : Nested) (scope : Scope) : (count : Nat) → Bool → Writer Bool
  | 0, spaced => return spaced
  | count + 1, spaced => do
    match ← pop with
    | none => return spaced
    | some next =>
      if next.isArray then
        nested.pending scope next
        aroundArray nested scope count (spaced && next matches .qualified ..)
      else
        ensureSpace
        if next.isQualified then
          nested.pending scope next
          ensureSpace
          write "("
        else
          write "("
          nested.pending scope next
        flush nested scope
        write ")"
        aroundArray nested scope count spaced

def writePending (nested : Nested) (scope : Scope) : Pending → Writer Unit
  | .pointer => write "*"
  | .reference => do
    let _ ← collapse true (← get).pending.length
    write "&"
  | .rvalueReference => do
    if ← collapse false ((← get).pending.length + 1) then write "&&"
  | .qualified q _ => qualifiers nested q
  | .array dimension => do
    if ← aroundArray nested scope (← get).pending.length true then ensureSpace
    write "["
    dimension.forM (piece nested scope)
    write "]"
  | .vector dimension => write s!" __vector({dimension})"
  | .memberPointer owner => do
    if (← lastWritten) != some '(' then write " "
    nested.node scope owner
    write "::*"
  | .function q reference exceptions => do
    qualifiers nested q
    spaced nested scope reference
    spaced nested scope exceptions
  | .parameters types => nested.pending scope (.parameterList types)
  | .parameterList types => parameterList nested scope types

def ofDepth : (depth : Nat) → Nested
  | 0 => exhausted
  | depth + 1 =>
    let inner := ofDepth depth
    ⟨writeNode inner, writePending inner, pure ()⟩

end Writer.Nested

namespace Node

def maxDepth : Nat := 127

def text? (node : Node) : Option String :=
  ((Writer.Nested.ofDepth maxDepth).node [] node .empty).map fun (_, t) =>
    String.ofList t.written.reverse

end Node

end SourceScope.Itanium
