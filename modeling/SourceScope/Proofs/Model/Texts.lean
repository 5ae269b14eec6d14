import SourceScope.Model.Sorted
import SourceScope.Model.Summary
import SourceScope.Proofs.Listing.Lookup
import SourceScope.Proofs.Listing.Orphans
import SourceScope.Proofs.Model.Rows

set_option autoImplicit false

namespace SourceScope

theorem find?_eq_of_take {A : Type} {p : A → Bool} {n : Nat} {xs ys : List A}
    (early : xs.take n = ys.take n) (shared : ∀ a, p a = true → (a ∈ xs ↔ a ∈ ys))
    (late : ∀ a ∈ xs.drop n, ∀ b ∈ ys.drop n, p a = true → p b = true → a = b) :
    xs.find? p = ys.find? p := by
  rw [← List.take_append_drop n xs, ← List.take_append_drop n ys, List.find?_append,
    List.find?_append, early]
  cases front : (ys.take n).find? p with
  | some a => rw [Option.some_or, Option.some_or]
  | none =>
    rw [Option.none_or, Option.none_or]
    have behind (a : A) (wanted : p a = true) : a ∈ xs.drop n ↔ a ∈ ys.drop n := by
      have absent : a ∉ ys.take n := fun member => List.find?_eq_none.1 front a member wanted
      have whole := shared a wanted
      rw [← List.take_append_drop n xs, ← List.take_append_drop n ys, List.mem_append,
        List.mem_append, early] at whole
      simpa only [absent, false_or] using whole
    cases first : (xs.drop n).find? p with
    | none =>
      symm
      rw [List.find?_eq_none] at first ⊢
      exact fun b member wanted => first b ((behind b wanted).2 member) wanted
    | some a =>
      have wanted := List.find?_some first
      have member := List.mem_of_find?_eq_some first
      obtain ⟨b, second⟩ := Option.isSome_iff_exists.1
        (List.find?_isSome.2 ⟨a, (behind a wanted).1 member, wanted⟩)
      have behindToo := List.mem_of_find?_eq_some second
      rw [second, late a member b behindToo wanted (List.find?_some second)]

namespace Listing

variable {a b : Listing}

theorem Consistent.file_unique (consistent : a.Consistent) {f g : FileId} {path : String}
    (first : a.path? f = some path) (second : a.path? g = some path) : f = g := by
  obtain ⟨x, atF, rfl⟩ := Option.map_eq_some_iff.1 first
  obtain ⟨y, atG, same⟩ := Option.map_eq_some_iff.1 second
  exact consistent.paths f g x y atF atG same.symm

theorem Consistent.mem_coded_iff (consistent : a.Consistent) (file : FileId) (number : UInt32) :
    (file, number) ∈ (a.lines.toList.filter (·.hasCode)).map (fun l => (l.file, l.number)) ↔
      (a.contentAt file number).1 ≠ [] := by
  simp only [List.mem_map, List.mem_filter, Prod.mk.injEq, SourceLine.hasCode]
  constructor
  · rintro ⟨line, ⟨member, coded⟩, rfl, rfl⟩
    obtain ⟨id, found⟩ := Array.mem_iff_getElem?.1 (Array.mem_toList_iff.1 member)
    rw [consistent.contentAt found]
    simpa using coded
  · intro coded
    cases numbered : a.numbered? file number with
    | none => exact absurd (congrArg (·.1) (contentAt_of_free numbered)) coded
    | some id =>
      obtain ⟨line, found, place⟩ := (consistent.numbered file number id).1 numbered
      rw [contentAt_of_numbered? numbered found] at coded
      exact ⟨line, ⟨Array.mem_toList_iff.2 (Array.mem_of_getElem? found), by simpa using coded⟩,
        place⟩

theorem Consistent.places_nodup (consistent : a.Consistent) :
    (a.lines.toList.map fun l => (l.file, l.number)).Nodup := by
  refine List.pairwise_map.2 (pairwise_toList fun m n first second less atM atN same => ?_)
  obtain ⟨file, number⟩ := Prod.mk.inj same
  exact Nat.ne_of_lt less (consistent.place_unique atM atN file number)

theorem Alike.coded (alike : a.Alike b) (aConsistent : a.Consistent) (bConsistent : b.Consistent) :
    (a.lines.filter (·.hasCode)).size = (b.lines.filter (·.hasCode)).size := by
  have distinct {listing : Listing} (consistent : listing.Consistent) :=
    consistent.places_nodup.sublist
      ((List.filter_sublist (l := listing.lines.toList) (p := (·.hasCode))).map _)
  have places := (List.perm_ext_iff_of_nodup (distinct aConsistent) (distinct bConsistent)).2
    fun ⟨file, number⟩ => by
      rw [aConsistent.mem_coded_iff, bConsistent.mem_coded_iff, alike.content]
  have lengths := places.length_eq
  simpa only [List.length_map, ← Array.toList_filter, Array.length_toList] using lengths

end Listing

namespace SourceModel

structure LineView where
  path : String
  number : UInt32
  -- Addresses of the line's instructions.
  instructions : List UInt32
  function : FunctionId
  isStub : Bool
deriving DecidableEq

def view (model : SourceModel) (line : SourceLine) : LineView :=
  ⟨model.filePath line, line.number, line.instructions, line.function, line.isStub⟩

structure Grown (rows : Listing) (model : SourceModel) : Prop where
  start : rows.Consistent
  stubbed : Listing.Stubbed model.functions model.driver rows model.listing
  finished : model.Finished
  driverLine : model.driverLine = driverLineOf model.listing model.driver

theorem Grown.consistent {rows : Listing} {model : SourceModel} (grown : Grown rows model) :
    model.listing.Consistent :=
  grown.stubbed.consistent

-- Models that have grown from the same line tables.
structure Twins (rows : Listing) (a b : SourceModel) : Prop where
  rest : a = { b with listing := a.listing, driverLine := a.driverLine }
  alike : a.listing.Alike b.listing
  first : Grown rows a
  second : Grown rows b

variable {rows : Listing} {a b model : SourceModel}

theorem Twins.symm (twins : Twins rows a b) : Twins rows b a := by
  refine ⟨?_, twins.alike.symm, twins.second, twins.first⟩
  rw [twins.rest]

theorem Twins.functions (twins : Twins rows a b) : a.functions = b.functions :=
  congrArg (·.functions) twins.rest

theorem Twins.driver (twins : Twins rows a b) : a.driver = b.driver :=
  congrArg (·.driver) twins.rest

theorem filePath_eq (model : SourceModel) (line : SourceLine) :
    model.filePath line = (model.listing.path? line.file).getD "" := rfl

theorem Twins.view_eq (twins : Twins rows a b) {m n : LineId} {line other : SourceLine}
    (atFirst : a.line? m = some line) (atSecond : b.line? n = some other)
    (file : line.file = other.file) (number : line.number = other.number) :
    a.view line = b.view other := by
  have content := (twins.first.consistent.contentAt atFirst).symm.trans
    (twins.alike.content line.file line.number)
  rw [file, number, twins.second.consistent.contentAt atSecond, Prod.mk.injEq] at content
  obtain ⟨instructions, stub⟩ := content
  have function : line.function = other.function := by
    rw [twins.first.finished.owned line (Array.mem_of_getElem? atFirst),
      twins.second.finished.owned other (Array.mem_of_getElem? atSecond), instructions,
      twins.functions, twins.driver]
  simp only [view, filePath_eq, twins.alike.path?_eq, file, number, instructions, function, stub]

theorem Twins.exists_line (twins : Twins rows a b) {id : LineId} {line : SourceLine}
    (found : a.line? id = some line) (coded : line.instructions ≠ [] ∨ line.isStub = true) :
    ∃ (n : LineId) (other : SourceLine), b.line? n = some other ∧ a.view line = b.view other := by
  have content := (twins.first.consistent.contentAt found).symm.trans
    (twins.alike.content line.file line.number)
  cases numbered : b.listing.numbered? line.file line.number with
  | none =>
    rw [Listing.contentAt_of_free numbered, Prod.mk.injEq] at content
    simp [content] at coded
  | some n =>
    obtain ⟨other, atN, file, number⟩ :=
      (twins.second.consistent.numbered line.file line.number n).1 numbered
    exact ⟨n, other, atN, twins.view_eq found atN file.symm number.symm⟩

theorem Finished.exists_lineAt? (finished : model.Finished) {address : UInt32} {i : Instruction}
    (found : model.instructionAt? address = some i) :
    ∃ (id : LineId) (line : SourceLine), model.lineAt? address = some line ∧
      model.line? id = some line ∧ i.opcode.address ∈ line.instructions := by
  obtain ⟨id, line, lineId, known, listed⟩ := finished.lineIdAt?_covered found
  refine ⟨id, line, ?_, known, listed⟩
  rw [lineAt?, Listing.lineAt?, lineId, Option.bind_some, ← line?, known]

theorem lineAt?_eq_none {address : UInt32} (missed : model.instructionAt? address = none) :
    model.lineAt? address = none := by
  rw [lineAt?, Listing.lineAt?, lineIdAt?_uncovered missed, Option.bind_none]

theorem Twins.lineAt? (twins : Twins rows a b) (address : UInt32) :
    (a.lineAt? address).map a.view = (b.lineAt? address).map b.view := by
  have opcode := Listing.opcodeAt?_of_code twins.first.finished.ascending twins.alike.code address
  cases found : a.instructionAt? address with
  | none =>
    rw [← instructionAt?, found, Option.map_none, eq_comm, Option.map_eq_none_iff] at opcode
    rw [lineAt?_eq_none found, lineAt?_eq_none opcode, Option.map_none, Option.map_none]
  | some i =>
    rw [← instructionAt?, found, Option.map_some, eq_comm, Option.map_eq_some_iff] at opcode
    obtain ⟨j, inSecond, same⟩ := opcode
    obtain ⟨m, line, atFirst, known, listed⟩ := twins.first.finished.exists_lineAt? found
    obtain ⟨n, other, atSecond, otherKnown, otherListed⟩ :=
      twins.second.finished.exists_lineAt? inSecond
    obtain ⟨k, copy, atCopy, views⟩ := twins.exists_line known (.inl (List.ne_nil_of_mem listed))
    have inCopy : j.opcode.address ∈ copy.instructions := by
      rw [same, ← show line.instructions = copy.instructions from congrArg (·.instructions) views]
      exact listed
    obtain rfl := twins.second.consistent.lister_unique atCopy otherKnown inCopy otherListed
    obtain rfl := Option.some.inj (atCopy.symm.trans otherKnown)
    rw [atFirst, atSecond, Option.map_some, Option.map_some, views]

theorem Grown.late (grown : Grown rows model) {id : LineId} {line : SourceLine}
    (found : model.line? id = some line) (behind : rows.lines.size ≤ id)
    (stub : line.isStub = true) (own : line.function = model.driver) :
    line.number = 1 ∧
      model.listing.path? line.file = some (model.functionName model.driver) := by
  have consistent := grown.consistent
  have fresh : rows.numbered? line.file line.number = none := by
    refine Option.eq_none_iff_forall_ne_some.2 fun old known => ?_
    obtain ⟨_, atOld, -⟩ := (grown.start.numbered _ _ old).1 known
    have bound := (Array.getElem?_eq_some_iff.1 atOld).1
    have here := (consistent.numbered _ _ id).2 ⟨line, found, rfl, rfl⟩
    rw [grown.stubbed.retains.lines _ _ old known] at here
    exact absurd (Option.some.inj here) (Nat.ne_of_lt (Nat.lt_of_lt_of_le bound behind))
  have content := consistent.contentAt found
  rw [stub] at content
  obtain none | ⟨number, address, rest, given, path⟩ :=
    grown.stubbed.stubs _ _ (Listing.contentAt_of_free fresh)
  · rw [none] at content
    exact absurd (congrArg (·.2) content) Bool.false_ne_true
  · obtain ⟨instructions, -⟩ := Prod.mk.inj (content.symm.trans given)
    have owner := grown.finished.owned line (Array.mem_of_getElem? found)
    rw [own, instructions, List.head?_cons, Option.bind_some] at owner
    rw [Listing.stubPath, Listing.ownerOf, ← owner] at path
    exact ⟨number, path⟩

def views (model : SourceModel) : List LineView := model.listing.lines.toList.map model.view

theorem getElem?_views (model : SourceModel) (id : LineId) :
    model.views[id]? = (model.line? id).map model.view := by
  rw [views, List.getElem?_map, Array.getElem?_toList, line?]

theorem mem_views_iff (v : LineView) :
    v ∈ model.views ↔ ∃ id line, model.line? id = some line ∧ model.view line = v := by
  simp only [List.mem_iff_getElem?, getElem?_views, Option.map_eq_some_iff]

def drives (model : SourceModel) (v : LineView) : Bool := v.isStub && v.function == model.driver

theorem Grown.driverLine_view (grown : Grown rows model) :
    (model.driverLine.bind model.line?).map model.view = model.views.find? model.drives := by
  have found : model.driverLine.bind model.line? =
      model.listing.lines.find? fun line => model.drives (model.view line) := by
    rw [Array.find?_eq_bind_findIdx?_getElem?, grown.driverLine]
    rfl
  rw [found, views, List.find?_map, Array.find?_toList]
  rfl

theorem Twins.views_take (twins : Twins rows a b) :
    a.views.take rows.lines.size = b.views.take rows.lines.size := by
  refine List.ext_getElem? fun id => ?_
  rw [List.getElem?_take, List.getElem?_take]
  split
  next bound =>
    have known := (twins.first.start.numbered _ _ id).2
      ⟨_, Array.getElem?_eq_getElem bound, rfl, rfl⟩
    obtain ⟨line, inFirst, lineFile, lineNumber⟩ :=
      (twins.first.consistent.numbered _ _ id).1
        (twins.first.stubbed.retains.lines _ _ id known)
    obtain ⟨other, inSecond, otherFile, otherNumber⟩ :=
      (twins.second.consistent.numbered _ _ id).1
        (twins.second.stubbed.retains.lines _ _ id known)
    have views := twins.view_eq inFirst inSecond (lineFile.trans otherFile.symm)
      (lineNumber.trans otherNumber.symm)
    rw [getElem?_views, getElem?_views, line?, line?, inFirst, inSecond, Option.map_some,
      Option.map_some, views]
  next => rfl

theorem Twins.mem_views (twins : Twins rows a b) {v : LineView} (stub : v.isStub = true)
    (member : v ∈ a.views) : v ∈ b.views := by
  obtain ⟨id, line, found, rfl⟩ := (mem_views_iff v).1 member
  obtain ⟨n, other, atN, views⟩ := twins.exists_line found (.inr stub)
  exact (mem_views_iff _).2 ⟨n, other, atN, views.symm⟩

theorem mem_drop_views {n : Nat} {v : LineView} (member : v ∈ model.views.drop n) :
    ∃ id line, n ≤ id ∧ model.line? id = some line ∧ model.view line = v := by
  obtain ⟨i, found⟩ := List.mem_iff_getElem?.1 member
  rw [List.getElem?_drop, getElem?_views, Option.map_eq_some_iff] at found
  obtain ⟨line, known, view⟩ := found
  exact ⟨n + i, line, Nat.le_add_right n i, known, view⟩

theorem Twins.driverLine_view (twins : Twins rows a b) :
    (a.driverLine.bind a.line?).map a.view = (b.driverLine.bind b.line?).map b.view := by
  have wanted : a.drives = b.drives := by
    funext v
    rw [drives, drives, twins.driver]
  rw [twins.first.driverLine_view, twins.second.driverLine_view, ← wanted]
  refine find?_eq_of_take twins.views_take ?_ ?_
  · intro v driven
    rw [drives, Bool.and_eq_true] at driven
    exact ⟨twins.mem_views driven.1, twins.symm.mem_views driven.1⟩
  · intro v inFirst w inSecond vDrives wDrives
    obtain ⟨m, line, mBehind, atM, rfl⟩ := mem_drop_views inFirst
    obtain ⟨n, other, nBehind, atN, rfl⟩ := mem_drop_views inSecond
    rw [wanted] at wDrives
    simp only [drives, view, Bool.and_eq_true, beq_iff_eq] at vDrives wDrives
    obtain ⟨number, path⟩ := twins.first.late atM mBehind vDrives.1 vDrives.2
    obtain ⟨otherNumber, otherPath⟩ := twins.second.late atN nBehind wDrives.1 wDrives.2
    have driverName : b.functionName b.driver = a.functionName a.driver := by
      rw [functionName, functionName, twins.functions, twins.driver]
    rw [driverName, ← twins.alike.path?_eq] at otherPath
    exact twins.view_eq atM atN (twins.first.consistent.file_unique path otherPath)
      (number.trans otherNumber.symm)

theorem profiledLine?_eq (model : SourceModel) (address : UInt32) :
    model.profiledLine? address =
      (model.lineAt? address).or (model.driverLine.bind model.line?) := by
  unfold profiledLine? profiledLineId? lineAt? Listing.lineAt?
  cases model.listing.lineIdAt? address with
  | none => rfl
  | some id =>
    have same : model.line? id = model.listing.lines[id]? := rfl
    cases found : model.listing.lines[id]? <;> simp [same, found]

/-- Models that say the same of code and functions. -/
structure Agrees (a b : SourceModel) : Prop where
  functions : a.functions = b.functions
  summary : a.summary = b.summary
  lineAt : ∀ address : UInt32,
    (a.lineAt? address).map a.view = (b.lineAt? address).map b.view
  functionAt : ∀ address : UInt32, a.functionAt? address = b.functionAt? address
  profiledLine : ∀ address : UInt32,
    (a.profiledLine? address).map a.view = (b.profiledLine? address).map b.view

theorem functionAt?_eq (model : SourceModel) (address : UInt32) :
    model.functionAt? address =
      ((model.lineAt? address).map model.view).bind fun v => model.functions.get? v.function := by
  rw [functionAt?, Option.bind_map]
  rfl

theorem Twins.summary (twins : Twins rows a b) : a.summary = b.summary := by
  have files : (a.listing.files.filter (!·.isSynthetic)).size =
      (b.listing.files.filter (!·.isSynthetic)).size := by
    have marks := congrArg (fun marks => (marks.toList.filter (!·)).length) twins.alike.synthetic
    simp only [← Array.length_toList]
    simpa [List.filter_map, Function.comp_def] using marks
  have lines := twins.alike.coded twins.first.consistent twins.second.consistent
  have instructions : a.listing.instructions.size = b.listing.instructions.size := by
    simpa [Listing.code] using congrArg List.length twins.alike.code
  rw [SourceModel.summary, SourceModel.summary, files, lines, instructions, twins.rest]

theorem Twins.agrees (twins : Twins rows a b) : a.Agrees b := by
  constructor
  case functions => exact twins.functions
  case summary => exact twins.summary
  case lineAt => exact twins.lineAt?
  case functionAt =>
    intro address
    rw [functionAt?_eq, functionAt?_eq, twins.lineAt?, twins.functions]
  case profiledLine =>
    intro address
    rw [profiledLine?_eq, profiledLine?_eq, Option.map_or, Option.map_or, twins.lineAt?,
      twins.driverLine_view]

theorem ofIndex_twins (settings : Settings) (files others : FileSystem)
    (disassemble : Disassembler) (binary : Binary) (index : EntryIndex)
    (frame : Option FrameSection) :
    ∃ rows, Twins rows (ofIndex settings files disassemble binary index frame)
      (ofIndex settings others disassemble binary index frame) := by
  have ascending := Listing.opcodes_ascending disassemble binary.code
  have grown (files : FileSystem) : Grown
      (Listing.ofRows settings index binary.functionSymbols
        (ofIndex settings files disassemble binary index frame).driver
        (Listing.opcodes disassemble binary.code))
      (ofIndex settings files disassemble binary index frame) :=
    ⟨Listing.ofRows_consistent settings index _ _ ascending,
      Listing.build_stubbed settings files index _ _ _ ascending,
      ofIndex_finished settings files disassemble binary index frame, rfl⟩
  exact ⟨_, rfl, Listing.build_alike settings files index _ _ _ ascending others, grown files,
    grown others⟩

/-- Outcomes of two builds that come to the same: one failure, or models that agree. -/
inductive Decorated : Except ModelError SourceModel → Except ModelError SourceModel → Prop where
  | failed (cause : ModelError) : Decorated (.error cause) (.error cause)
  | built {a b : SourceModel} : a.Agrees b → Decorated (.ok a) (.ok b)

/-- Source text is only decoration: with any other contents of the file system, a build comes to the
same functions, lines of code and places to count executions at. -/
theorem build_decorated (settings : Settings) (files others : FileSystem)
    (disassemble : Disassembler) (binary : Binary) :
    Decorated (build settings files disassemble binary)
      (build settings others disassemble binary) := by
  unfold build
  split
  · exact .failed _
  · cases inContext "Failed to index debug info" (EntryIndex.load binary.debugSections) with
    | error cause => exact .failed cause
    | ok index =>
      cases inContext "Failed to parse .debug_frame" (frameOf binary) with
      | error cause => exact .failed cause
      | ok frame =>
        obtain ⟨rows, twins⟩ := ofIndex_twins settings files others disassemble binary index frame
        exact .built twins.agrees

def trailing : Binary := { touching with code := [⟨".text", 0x100, Sample.nops 4⟩] }

def twoLines : FileSystem where
  isFile path := path == "m.c"
  read path := if path = "m.c" then .ok [0x31, 0x0a, 0x32, 0x0a] else .error .notFound

set_option maxRecDepth 20000 in
theorem trailing_driverLines :
    (build .default twoLines Opcode.sweep trailing).toOption.map (·.driverLine) =
        some (some 4) ∧
      (build .default noFiles Opcode.sweep trailing).toOption.map (·.driverLine) =
        some (some 2) := by
  constructor <;> cbv

theorem build_decorated_trailing :
    ∃ a b, build .default twoLines Opcode.sweep trailing = .ok a ∧
      build .default noFiles Opcode.sweep trailing = .ok b ∧ a.Agrees b ∧
      a.driverLine = some 4 ∧ b.driverLine = some 2 := by
  obtain ⟨a, built, aLine⟩ := exists_ok trailing_driverLines.1
  obtain ⟨b, other, bLine⟩ := exists_ok trailing_driverLines.2
  have decorated := build_decorated .default twoLines noFiles Opcode.sweep trailing
  rw [built, other] at decorated
  cases decorated with
  | built agrees => exact ⟨a, b, built, other, agrees, aLine, bLine⟩

end SourceModel

end SourceScope
