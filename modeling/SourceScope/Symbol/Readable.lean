import SourceScope.Symbol.CratePath.Text
import SourceScope.Symbol.Hashed
import SourceScope.Symbol.Itanium.Mangled
import SourceScope.Symbol.Itanium.Text

set_option autoImplicit false

namespace SourceScope.Symbol

def isImportMark (c : Char) : Bool := c.isDigit || ('A' ≤ c && c ≤ 'F') || c == '@'

def importMark : List Char := ".llvm.".toList

def withoutImportMark (symbol : List Char) : List Char := go symbol
where
  go : List Char → List Char
    | [] => []
    | c :: rest =>
      if importMark.isPrefixOf (c :: rest) then
        -- Only the first mark counts.
        if ((c :: rest).drop importMark.length).all isImportMark then [] else c :: rest
      else c :: go rest

def isGraphic (c : Char) : Bool := '!' ≤ c && c ≤ '~'

def isAddition (rest : List Char) : Bool :=
  rest.isEmpty || (rest.head? == some '.' && rest.all isGraphic)

def ofPath? (symbol : List Char) : Option String := do
  let (text, rest) ← (Hashed.text? symbol).or (CratePath.text? symbol)
  if isAddition rest then return text ++ String.ofList rest else none

def ofPath (name : String) : String :=
  let symbol := withoutImportMark name.toList
  (ofPath? symbol).getD (String.ofList symbol)

def readable (name : String) : String :=
  match (Itanium.Node.ofMangled? name).bind Itanium.Node.text? with
  | some text => text
  | none => ofPath name

end SourceScope.Symbol
