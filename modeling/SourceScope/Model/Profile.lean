import SourceScope.Model.Basic

set_option autoImplicit false

namespace SourceScope

namespace SourceModel

def record (model : SourceModel) (address : UInt32) (cycles : UInt64) : SourceModel :=
  match model.profiledLineId? address with
  | none => model
  | some id =>
    match model.line? id with
    | none => model
    | some line =>
      { model with
        listing := { model.listing with
          lines := model.listing.lines.modify id fun l => { l with counter := l.counter.record cycles } }
        functionCounters := model.functionCounters.modify line.function (·.record cycles) }

def resetCounters (model : SourceModel) : SourceModel :=
  { model with
    listing := { model.listing with
      lines := model.listing.lines.map fun l => { l with counter := .zero } }
    functionCounters := model.functionCounters.map fun _ => .zero }

def functionCounter (model : SourceModel) (id : FunctionId) : Counter :=
  (model.functionCounters[id]?).getD .zero

end SourceModel

end SourceScope
