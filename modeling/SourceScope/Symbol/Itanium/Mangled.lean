import SourceScope.Symbol.Itanium.Expression

set_option autoImplicit false

namespace SourceScope.Itanium

namespace Grammar

open SourceScope.Itanium.Parser

def callOffset (g : Grammar) : Parser Node := firstOf [
  do
    expect "h"
    g.enter
    let offset ← integer
    expect "_"
    return .rule [s!"\x7boffset({offset})\x7d"],
  do
    expect "v"
    g.enter
    let offset ← integer
    expect "_"
    let adjustment ← integer
    expect "_"
    return .rule [s!"\x7bvirtual offset({offset}, {adjustment})\x7d"]]

def isResourceCharacter (c : Char) : Bool := c != ' '

def unescapeResource : List Char → List Char
  | '$' :: 'S' :: rest => '/' :: unescapeResource rest
  | '$' :: '_' :: rest => '.' :: unescapeResource rest
  | '$' :: '$' :: rest => '$' :: unescapeResource rest
  | c :: rest => c :: unescapeResource rest
  | [] => []

def resource (g : Grammar) : Parser Node := do
  let length ← number 10
  match ← take length with
  | '_' :: name =>
    g.enter
    if name.isEmpty || !name.all isResourceCharacter then fail
    else return .rule [.words ("java resource " ++ String.ofList (unescapeResource name))]
  | _ => fail

def specialNames (g : Grammar) : List (String × Parser Node) :=
  let ofType (before after : String) : Parser Node := do
    return .rule [.words before, ← g.rule .type, .words after]
  let ofName (before : String) : Parser Node := do
    return .rule [.words before, ← g.rule .name]
  [("TV", ofType "\x7bvtable(" ")\x7d"), ("TT", ofType "\x7bvtt(" ")\x7d"),
    ("TI", ofType "typeinfo for " ""), ("TS", ofType "typeinfo name for " ""),
    ("TF", ofType "typeinfo fn for " ""),
    ("Tc", do
      let this ← g.rule .callOffset
      let result ← g.rule .callOffset
      return .rule ["\x7bvirtual override thunk(",
        .list [this, result, ← g.rule .encoding], ")\x7d"]),
    ("TC", do
      let whole ← g.rule .type
      let _ ← number 10
      expect "_"
      return .rule ["construction vtable for ", whole, "-in-", ← g.rule .type]),
    ("TH", ofName "TLS init function for "), ("TW", ofName "TLS wrapper function for "),
    ("GV", ofName "guard variable for "),
    ("GR", do
      let name ← g.rule .name
      let index ← if ← accepts "_" then pure 0
        else do
          let index ← sequenceNumber g
          expect "_"
          pure (index + 1)
      return .rule [.words s!"reference temporary #{index} for ", name]),
    ("Gr", resource g),
    ("GT", do
      let kind ← take 1
      let text := if kind == ['n'] then "non-transaction clone for " else "transaction clone for "
      return .rule [.words text, ← g.rule .encoding])]

def special (g : Grammar) : Parser Node := branch (oneOf (specialNames g)) id do
  expect "T"
  let offset ← g.rule .callOffset
  return .rule ["\x7bvirtual override thunk(", .list [offset, ← g.rule .encoding], ")\x7d"]

def encoding (g : Grammar) : Parser Node :=
  branch (g.rule .name)
    (fun name => do return .encoding name (← attempt (g.rule .signature)))
    do return .encoding (← g.rule .special) none

def isCloneCharacter (c : Char) : Bool := c.isAlphanum || c == '$' || c == '_'

def cloneSuffix (g : Grammar) : Parser Node := do
  expect "."
  g.enter
  match ← takeWhile isCloneCharacter with
  | [] => fail
  | kind =>
    let numbers ← many do expect "."; number 10
    let numbers := String.join (numbers.map fun n => s!".{n}")
    return .rule [.words s!" [clone .{String.ofList kind}{numbers}]"]

def blockSuffix : Parser Unit := do
  expect "_block_invoke"
  if (← attempt (oneOf [("_", ()), (".", ())])).isSome then
    let _ ← number 10

def keyed (g : Grammar) : Parser Node := do
  oneOf [("_", ()), (".", ()), ("$", ())]
  let text ← oneOf [("I", "global constructors keyed to "), ("D", "global destructors keyed to ")]
  expect "_"
  return .rule [.words text, ← g.rule .mangled]

def mangled (g : Grammar) : Parser Node :=
  branch (oneOf [("_Z", ()), ("__Z", ())])
    (fun _ => do
      let encoding ← g.rule .encoding
      let suffixes ← many (g.rule .cloneSuffix)
      return .rule (.item encoding :: suffixes.map .item)) <|
  branch (oneOf [("___Z", ()), ("____Z", ())])
    (fun _ => do
      let encoding ← g.rule .encoding
      blockSuffix
      return .rule ["invocation function for block in ", encoding]) <|
  branch (expect "_GLOBAL_") (fun _ => do return .rule [.item (← g.rule .keyed)]) <|
  do return .rule [.item (← g.rule .type)]

def read (g : Grammar) : (rule : Rule) → Parser rule.Result
  | .mangled => mangled g
  | .keyed => keyed g
  | .cloneSuffix => cloneSuffix g
  | .encoding => encoding g
  | .special => special g
  | .callOffset => callOffset g
  | .name => name g
  | .nestedName => nestedName g
  | .front => front g
  | .frontPart outer => frontPart g outer
  | .unscopedName => unscopedName g
  | .templateName => g.rule .substitution
  | .localName => localName g
  | .unqualifiedName => unqualifiedName g
  | .operatorName => g.rule .operator
  | .operator => operator g
  | .constructor => constructor g
  | .tags => tags g
  | .tag => tag g
  | .sourceName => sourceName g
  | .closure => closure g
  | .parameters => parameters g
  | .substitution => substitution g
  | .type => type g
  | .builtin => builtin g
  | .classType => classType g
  | .functionType => functionType g
  | .exceptions => exceptions g
  | .signature => manyOne (g.rule .type)
  | .array => array g
  | .vector => vector g
  | .memberPointer => memberPointer g
  | .templateTemplate => templateTemplate g
  | .decltype => decltype g
  | .templateArguments => templateArguments g
  | .templateArgument => templateArgument g
  | .expression => expression g
  | .initializer => initializer g
  | .functionParameter => functionParameter g
  | .unresolvedName => unresolvedName g
  | .unresolvedType => unresolvedType g
  | .qualifierLevel => do return .rule [.item (← g.rule .simpleId)]
  | .simpleId => simpleId g
  | .baseUnresolvedName => baseUnresolvedName g
  | .destructorName => destructorName g
  | .memberName => memberName g
  | .literal => literal g

def ofDepth : (depth : Nat) → Grammar
  | 0 => exhausted
  | depth + 1 => ⟨(ofDepth depth).read, pure ()⟩

def maxDepth : Nat := 95

end Grammar

def Node.ofMangled? (text : String) : Option Node :=
  match (Grammar.ofDepth Grammar.maxDepth).rule .mangled text.toList ⟨#[], false⟩ with
  | (.found node [], _) => some node
  | _ => none

end SourceScope.Itanium
