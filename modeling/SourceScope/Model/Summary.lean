import SourceScope.Model.Basic

set_option autoImplicit false

namespace SourceScope

structure Summary where
  units : Nat
  -- Files with lines of their own.
  files : Nat
  linesWithCode : Nat
  instructions : Nat
  -- Functions that debug entries describe.
  functions : Nat
  -- Functions that are known from symbols only, and the driver.
  stubs : Nat
  types : Nat
  globals : Nat
  locals : Nat
deriving DecidableEq, Repr

def SourceModel.summary (model : SourceModel) : Summary :=
  let stubs := (model.functions.functions.filter (·.isStub)).length
  { units := model.units
    files := (model.listing.files.filter (!·.isSynthetic)).size
    linesWithCode := (model.listing.lines.filter (·.hasCode)).size
    instructions := model.listing.instructions.size
    functions := model.functions.size - stubs
    stubs
    types := model.types.size
    globals := model.variableSet.globals.length
    locals := model.variableSet.locals.length }

def Summary.text (s : Summary) : String :=
  "\n".intercalate [
    s!"compile units:   {s.units}",
    s!"source files:    {s.files}",
    s!"lines with code: {s.linesWithCode}",
    s!"instructions:    {s.instructions}",
    s!"functions:       {s.functions} ({s.stubs} stubs)",
    s!"types:           {s.types}",
    s!"variables:       {s.globals} globals, {s.locals} locals"]

end SourceScope
