import SourceScope.DebugInfo.Abbreviation
import SourceScope.Entry.Index
import SourceScope.Entry.Ranges
import SourceScope.Line.Program

set_option autoImplicit false

namespace SourceScope

structure RawEntry where
  -- Offset in the unit.
  offset : Nat
  abbreviation : Abbreviation
  values : List (Nat × FormValue)
  -- How much deeper it is than the entry before it.
  deeper : Int
deriving Repr

namespace RawEntry

def valuesOf (e : Encoding) : List AttributeForm → Reader (List (Nat × FormValue))
  | [] => return []
  | a :: rest => do
    let value ← FormValue.reader e a.implied a.name a.form
    return (a.name, value) :: (← valuesOf e rest)

/-- The entries in the rest of a unit, `bytes`, which ends at offset `stop`. `deeper` is how much
deeper the next entry is than the one before it; a null entry ends a list of children. -/
def walk (e : Encoding) (table : List Abbreviation) (stop : Nat) (deeper : Int)
    (bytes : List UInt8) : Except ReadError (List RawEntry) :=
  if bytes.isEmpty then .ok []
  else
    match Leb128.unsigned bytes with
    | .error cause => .error cause
    | .ok (code, rest) =>
      if _ : rest.length < bytes.length then
        if code = 0 then walk e table stop (deeper - 1) rest
        else
          match table.find? (·.code == code) with
          | none => .error .unknownAbbreviation
          | some abbreviation =>
            match valuesOf e abbreviation.attributes rest with
            | .error cause => .error cause
            | .ok (values, left) =>
              if _ : left.length < bytes.length then
                match walk e table stop (if abbreviation.hasChildren then 1 else 0) left with
                | .error cause => .error cause
                | .ok later => .ok (⟨stop - bytes.length, abbreviation, values, deeper⟩ :: later)
              else .error .unexpectedEnd
      else .error .unexpectedEnd
termination_by bytes.length

def first (e : Encoding) (table : List Abbreviation) (stop : Nat) (deeper : Int) :
    (bytes : List UInt8) → Except ReadError RawEntry
  | [] => .error .missingRootEntry
  | b :: more =>
    match Leb128.unsigned (b :: more) with
    | .error cause => .error cause
    | .ok (code, rest) =>
      if code = 0 then
        if _ : rest.length ≤ more.length then first e table stop (deeper - 1) rest
        else .error .unexpectedEnd
      else
        match table.find? (·.code == code) with
        | none => .error .unknownAbbreviation
        | some abbreviation => do
          let values ← (valuesOf e abbreviation.attributes).read rest
          return ⟨stop - (more.length + 1), abbreviation, values, deeper⟩
termination_by bytes => bytes.length

end RawEntry

namespace AttrValue

def unsignedAttributes : List Nat :=
  [Attr.byteSize, Attr.highPc, Attr.dataMemberLocation, Attr.declarationFile,
    Attr.declarationLine, Attr.callFile, Attr.callLine]

def ofForm (s : DebugSections) (e : Encoding) (unit : Nat) (name : Nat) (value : FormValue) :
    AttrValue :=
  match value with
  | .address n => address (UInt32.ofNat n)
  | .constant n => if name = Attr.inlined ∧ n < 256 then other else unsigned (UInt64.ofNat n)
  | .signed n =>
    if n < 0 then signed (Int64.ofInt n)
    else if name = Attr.inlined ∧ n < 256 then other
    else if unsignedAttributes.contains name ∨ (name = Attr.encoding ∧ n < 256) then
      unsigned (UInt64.ofNat n.toNat)
    else signed (Int64.ofInt n)
  | .flag b => flag b
  | .block bytes => block bytes
  | .sectionOffset offset =>
    if name = Attr.location ∨ name = Attr.frameBase ∨ name = Attr.dataMemberLocation then
      locationList offset
    else if name = Attr.ranges then rangeList offset
    else if name = Attr.lineTable then lineTable offset
    else other
  | .unitReference offset => reference (unit + offset)
  | .reference offset => reference offset
  | .text _ | .textAt _ =>
    match s.stringBytes e.offsetSize ⟨0, 0⟩ value with
    | .ok bytes => text (Utf8.lossy bytes)
    | .error _ => other
  | .lineTextAt _ | .textIndex _ | .addressIndex _ | .other => other

def kept (s : DebugSections) (e : Encoding) (unit : Nat) (values : List (Nat × FormValue)) :
    List (Nat × AttrValue) :=
  Attr.kept.filterMap fun name => (values.lookup name).map fun v => (name, ofForm s e unit name v)

end AttrValue

namespace EntryIndex

def supportedVersion : UInt16 := 4

def mandatorySections : List String := [".debug_info", ".debug_abbrev", ".debug_line"]

def lineProgram? (s : DebugSections) (e : Encoding) (values : List (Nat × FormValue)) :
    Except ReadError (Option (LineProgram.Header × Option (List UInt8) × DebugSections.Bases)) := do
  let latest (name : Nat) := values.reverse.lookup name
  let latestOffset (names : List Nat) : Nat :=
    (values.reverse.findSome? fun
      | (name, .sectionOffset offset) => if names.contains name then some offset else none
      | _ => none).getD 0
  let bases : DebugSections.Bases :=
    ⟨latestOffset [Attr.stringOffsetsBase], latestOffset [Attr.addressBase, Attr.oldAddressBase]⟩
  let directory := (latest Attr.compilationDirectory).bind fun value =>
    (s.stringBytes e.offsetSize bases value).toOption
  let program := values.reverse.findSome? fun
    | (name, .sectionOffset offset) => if name = Attr.lineTable then some offset else none
    | _ => none
  let header ← program.mapM fun offset =>
    s.readAt ".debug_line" offset (LineProgram.header s.order e.addressSize)
  match latest Attr.lowPc with
  | some (.addressIndex index) => discard (s.indexedAddress e.addressSize bases index)
  | _ => pure ()
  return header.map (·, directory, bases)

def unitOfRoot (s : DebugSections) (e : Encoding)
    (program : Option (LineProgram.Header × Option (List UInt8) × DebugSections.Bases))
    (root : Entry) : Except ReadError CompileUnit := do
  let base :=
    match root.attr? Attr.lowPc with
    | some (.address low) => low
    | _ => 0
  let ranges ← root.ranges base ⟨s.order, s.data ".debug_ranges"⟩
  let directory := root.text? Attr.compilationDirectory
  let (files, rows) ← match program with
    | none => pure ([], [])
    | some (header, compilation, bases) => do
      let files ← LineProgram.fileTable s bases e.offsetSize header compilation directory
      pure (files, ← LineProgram.rows header files .initially header.program)
  return {
    offset := root.offset, name := root.name?.getD "", directory, base, ranges, files, rows }

def entryOf (s : DebugSections) (e : Encoding) (start : Nat) (depth : Int) (raw : RawEntry) :
    Entry where
  offset := start + raw.offset
  tag := raw.abbreviation.tag
  unit := 0
  depth := depth.toNat
  parent := none
  attributes := AttrValue.kept s e start raw.values

def pushRaw (s : DebugSections) (e : Encoding) (start owner : Nat) :
    (depth : Int) → List RawEntry → EntryIndex → Except ModelError EntryIndex
  | _, [], index => .ok index
  | depth, raw :: rest, index =>
    let depth := depth + raw.deeper
    match index.pushEntry owner (entryOf s e start depth raw) with
    | .error cause => .error cause
    | .ok index => pushRaw s e start owner depth rest index

def pushHeader (s : DebugSections) (start : Nat) (header : UnitHeader) (index : EntryIndex) :
    Except ModelError EntryIndex := do
  if header.version ≠ supportedVersion then
    throw (.unsupportedVersion header.version start)
  if header.encoding.offsetSize ≠ 4 then
    throw (.unsupported ("64-bit DWARF in unit at offset 0x" ++ Hex.text start))
  let e := header.encoding
  let read {α : Type} (result : Except ReadError α) : Except ModelError α :=
    result.mapError .debugData
  let table ← read (Abbreviation.table (s.data ".debug_abbrev") header.abbreviations)
  let raw ← read (RawEntry.first e table header.size 0 header.entries)
  let program ← read (lineProgram? s e raw.values)
  let root := entryOf s e start raw.deeper raw
  let unit ← read (unitOfRoot s e program root)
  let all ← read (RawEntry.walk e table header.size 0 header.entries)
  pushRaw s e start root.offset 0 all (index.pushUnit unit)

def pushUnits (s : DebugSections) (start : Nat) (bytes : List UInt8) (index : EntryIndex) :
    Except ModelError EntryIndex :=
  if bytes.isEmpty then .ok index
  else
    match UnitHeader.reader s.order bytes with
    | .error cause => .error (.debugData cause)
    | .ok (header, rest) =>
      -- the header begins with a length
      if _ : rest.length < bytes.length then
        match pushHeader s start header index with
        | .error cause => .error cause
        | .ok index => pushUnits s (start + header.size) rest index
      else .error (.debugData .unexpectedEnd)
termination_by bytes.length

def load (s : DebugSections) : Except ModelError EntryIndex :=
  match mandatorySections.find? fun name => (s.find? name).isNone with
  | some name => .error (.missingSection name)
  | none => pushUnits s 0 (s.data ".debug_info") .empty

end EntryIndex

end SourceScope
