import SourceScope.Frame.Unwind
import SourceScope.Layout.Table
import SourceScope.Listing.Basic
import SourceScope.Settings
import SourceScope.Variable.Resolve

set_option autoImplicit false

namespace SourceScope

structure SourceModel where
  settings : Settings
  -- Number of compile units.
  units : Nat
  types : TypeTable
  functions : FunctionSet
  -- A counter for each function.
  functionCounters : Array Counter
  -- The function that has all code that no other function has.
  driver : FunctionId
  -- Line of the driver; it is there if the driver has code of its own.
  driverLine : Option LineId
  variableSet : VariableSet
  frame : Option FrameSection
  listing : Listing
  -- Indices of the locals that were in scope at the latest update.
  activeLocals : List Nat

namespace SourceModel

def line? (model : SourceModel) (id : LineId) : Option SourceLine := model.listing.lines[id]?

def file? (model : SourceModel) (id : FileId) : Option SourceFile := model.listing.files[id]?

def fileByPath? (model : SourceModel) (path : String) : Option FileId :=
  model.listing.files.findIdx? fun f => f.path == path || f.shortPath == path

def lineOf? (model : SourceModel) (file : FileId) (number : UInt32) : Option SourceLine :=
  ((model.file? file).bind (·.line? number)).bind model.line?

def instructionAt? (model : SourceModel) (address : UInt32) : Option Instruction :=
  model.listing.instructionAt? address

def lineAt? (model : SourceModel) (address : UInt32) : Option SourceLine :=
  model.listing.lineAt? address

/-- Where an execution at an address is counted: at the driver's line if no other has it. -/
def profiledLineId? (model : SourceModel) (address : UInt32) : Option LineId :=
  match model.listing.lineIdAt? address with
  | some id => if (model.line? id).isSome then some id else model.driverLine
  | none => model.driverLine

def profiledLine? (model : SourceModel) (address : UInt32) : Option SourceLine :=
  (model.profiledLineId? address).bind model.line?

def functionAt? (model : SourceModel) (address : UInt32) : Option SourceFunction :=
  (model.lineAt? address).bind fun line => model.functions.get? line.function

def functionByName? (model : SourceModel) (name : String) : Option SourceFunction :=
  (model.functions.find? name).bind model.functions.get?

/-- Whether a variable's bytes include an address. A variable of no size has one byte. -/
def occupies (v : Variable) (address : UInt32) : Bool :=
  match v.address?.or v.staticAddress? with
  | none => false
  | some start => start ≤ address && address - start < max v.size 1

def globalAt? (model : SourceModel) (address : UInt32) : Option Variable :=
  model.variableSet.globals.find? (occupies · address)

end SourceModel

end SourceScope
