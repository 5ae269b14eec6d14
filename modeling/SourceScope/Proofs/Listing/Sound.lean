import Mathlib.Data.List.Nodup
import SourceScope.Proofs.Function.Owner
import SourceScope.Proofs.Listing.Steps

set_option autoImplicit false

namespace SourceScope.Listing

theorem map_modify {A B : Type} {f : A → A} {g : A → B} (keeps : ∀ a, g (f a) = g a)
    (items : Array A) (i : Nat) : (items.modify i f).map g = items.map g := by
  apply Array.ext_getElem?
  intro n
  simp only [Array.getElem?_map, Array.getElem?_modify]
  split <;> simp [Function.comp_def, keeps]

theorem outline_modifyLine (listing : Listing) (id : LineId) (f : SourceLine → SourceLine)
    (keeps : ∀ l, (f l).file = l.file ∧ (f l).number = l.number ∧
      (f l).instructions = l.instructions) :
    outline { listing with lines := listing.lines.modify id f } = listing.outline := by
  simp [outline, map_modify, keeps]

theorem outline_modifyFile (listing : Listing) (id : FileId) (f : SourceFile → SourceFile)
    (keeps : ∀ file, (f file).path = file.path ∧ (f file).lines = file.lines) :
    outline { listing with files := listing.files.modify id f } = listing.outline := by
  simp [outline, map_modify, keeps]

theorem assignTo_continues (line : LineId) (stop : UInt32) (count index : Nat) (listing : Listing)
    (known : line < listing.lines.size) :
    listing.Continues (assignTo line stop count index listing) := by
  fun_induction assignTo line stop count index listing with
  | case1 => exact Continues.refl _
  | case2 => exact Continues.refl _
  | case3 => exact Continues.refl _
  | case4 _ _ _ _ _ _ _ _ ih => exact ih known
  | case5 count index listing instruction found address before free ih =>
    have unassigned : instruction.line = none := by simpa using free
    have given := give_continues found unassigned known
    exact given.trans (ih (Nat.lt_of_lt_of_le known given.lines))

theorem attach_continues {listing : Listing} (consistent : listing.Consistent)
    (driver : FunctionId) (extent : LineExtent) :
    listing.Continues (attach driver listing extent) := by
  have file := fileId_continues listing extent.file
  have line := lineId_continues (listing.fileId extent.file).2 (listing.fileId extent.file).1
    extent.line driver (fileId_lt listing extent.file)
  have known := lineId_lt (listing.fileId extent.file).2 (listing.fileId extent.file).1
    extent.line driver (file.consistent consistent)
  exact (file.trans line).trans (assignTo_continues _ _ _ _ _ known)

theorem setTexts_continues (driver : FunctionId) (file : FileId) (number : Nat)
    (texts : List String) (listing : Listing) (known : file < listing.files.size) :
    listing.Continues (setTexts driver file number texts listing) := by
  induction texts generalizing number listing with
  | nil => exact Continues.refl _
  | cons text rest ih =>
    have line := lineId_continues listing file (UInt32.ofNat number) driver known
    have named := Continues.of_outline (outline_modifyLine
      (listing.lineId file (UInt32.ofNat number) driver).2
      (listing.lineId file (UInt32.ofNat number) driver).1 (fun l => { l with text })
      (fun _ => ⟨rfl, rfl, rfl⟩)).symm
    have first := line.trans named
    exact first.trans (ih (number + 1) _ (Nat.lt_of_lt_of_le known first.files))

theorem loadFile_continues (files : FileSystem) (searchPaths : List String) (driver : FunctionId)
    (listing : Listing) (file : FileId) :
    listing.Continues (loadFile files searchPaths driver listing file) := by
  unfold loadFile
  split
  next => exact Continues.refl _
  next text found =>
    obtain ⟨_, atFile, -⟩ := Option.bind_eq_some_iff.1 found
    have known := (Array.getElem?_eq_some_iff.1 atFile).1
    exact (setTexts_continues driver file 1 (textLines text) listing known).trans
      (Continues.of_outline (outline_modifyFile _ file (fun f => { f with isLoaded := true })
        (fun _ => ⟨rfl, rfl⟩)).symm)

theorem loadTexts_continues (files : FileSystem) (searchPaths : List String) (driver : FunctionId)
    (listing : Listing) : listing.Continues (loadTexts files searchPaths driver listing) :=
  Continues.foldl _ _ listing fun a file _ _ => loadFile_continues files searchPaths driver a file

def stubFile (listing : Listing) (name : String) : FileId × Listing :=
  ((listing.fileId name).1, { (listing.fileId name).2 with
    files := (listing.fileId name).2.files.modify (listing.fileId name).1 fun f =>
      { f with isSynthetic := true } })

def stubLine (listing : Listing) (name : String) (function : FunctionId) : LineId × Listing :=
  (listing.stubFile name).2.lineId (listing.stubFile name).1 1 function

theorem stubFile_continues (listing : Listing) (name : String) :
    listing.Continues (listing.stubFile name).2 := by
  have marked := outline_modifyFile (listing.fileId name).2 (listing.fileId name).1
    (fun f => { f with isSynthetic := true }) (fun _ => ⟨rfl, rfl⟩)
  exact (fileId_continues listing name).trans (Continues.of_outline marked.symm)

theorem stubFile_lt (listing : Listing) (name : String) :
    (listing.stubFile name).1 < (listing.stubFile name).2.files.size := by
  simpa [stubFile] using fileId_lt listing name

theorem stubLine_continues (listing : Listing) (name : String) (function : FunctionId) :
    listing.Continues (listing.stubLine name function).2 :=
  (stubFile_continues listing name).trans
    (lineId_continues _ _ 1 function (stubFile_lt listing name))

theorem stubLine_instructions (listing : Listing) (name : String) (function : FunctionId) :
    (listing.stubLine name function).2.instructions = listing.instructions := by
  rw [stubLine, lineId_instructions]
  exact fileId_instructions listing name

theorem stubLine_lt {listing : Listing} (consistent : listing.Consistent) (name : String)
    (function : FunctionId) :
    (listing.stubLine name function).1 < (listing.stubLine name function).2.lines.size :=
  lineId_lt _ _ 1 function ((stubFile_continues listing name).consistent consistent)

theorem attachOrphan_outline (functions : FunctionSet) (driver : FunctionId) {listing : Listing}
    {index : Nat} {instruction : Instruction}
    (found : listing.instructions[index]? = some instruction) :
    ∃ name function, (attachOrphan functions driver listing index).outline =
      ((listing.stubLine name function).2.give index instruction.opcode.address
        (listing.stubLine name function).1).outline := by
  refine ⟨((functions.get? ((functions.smallestEnclosing? instruction.opcode.address).getD
    driver)).map (·.name)).getD "",
    (functions.smallestEnclosing? instruction.opcode.address).getD driver, ?_⟩
  simp only [attachOrphan, found]
  symm
  -- the two differ in the stub mark of the line only
  generalize ((functions.get? ((functions.smallestEnclosing? instruction.opcode.address).getD
    driver)).map (·.name)).getD "" = name
  generalize (functions.smallestEnclosing? instruction.opcode.address).getD driver = function
  change (give (listing.stubLine name function).2 index instruction.opcode.address
    (listing.stubLine name function).1).outline = outline
      { (listing.stubLine name function).2 with
        lines := (listing.stubLine name function).2.lines.modify (listing.stubLine name function).1
          fun l => { l with
            isStub := true, instructions := l.instructions ++ [instruction.opcode.address] }
        instructions := (listing.stubLine name function).2.instructions.modify index fun i =>
          { i with line := some (listing.stubLine name function).1 } }
  simp only [outline, give, Outline.mk.injEq, true_and, and_true]
  apply Array.ext_getElem?
  intro n
  simp only [Array.getElem?_map, Array.getElem?_modify]
  split <;> simp [Function.comp_def]

theorem attachOrphan_continues (functions : FunctionSet) (driver : FunctionId) {listing : Listing}
    (consistent : listing.Consistent) {index : Nat} {instruction : Instruction}
    (found : listing.instructions[index]? = some instruction) (free : instruction.line = none) :
    listing.Continues (attachOrphan functions driver listing index) := by
  obtain ⟨name, function, same⟩ := attachOrphan_outline functions driver found
  have kept := found
  rw [← stubLine_instructions listing name function] at kept
  exact (stubLine_continues listing name function).trans
    ((give_continues kept free (stubLine_lt consistent name function)).trans
      (Continues.of_outline same.symm))

theorem attachOrphan_getElem? (functions : FunctionSet) (driver : FunctionId) {listing : Listing}
    {index : Nat} {instruction : Instruction}
    (found : listing.instructions[index]? = some instruction) :
    ∃ line, ∀ n, (attachOrphan functions driver listing index).instructions[n]? =
      if n = index then some { instruction with line := some line }
      else listing.instructions[n]? := by
  obtain ⟨name, function, same⟩ := attachOrphan_outline functions driver found
  rw [← stubLine_instructions listing name function] at found
  refine ⟨(listing.stubLine name function).1, fun n => ?_⟩
  rw [instructions_of_outline same, give_getElem? found, stubLine_instructions]

theorem attachOrphan_free (functions : FunctionSet) (driver : FunctionId) {listing : Listing}
    {first : Nat} {rest : List Nat} (notLater : first ∉ rest)
    (free : ∀ index ∈ first :: rest, ∃ instruction,
      listing.instructions[index]? = some instruction ∧ instruction.line = none) :
    ∀ index ∈ rest, ∃ instruction,
      (attachOrphan functions driver listing first).instructions[index]? = some instruction ∧
        instruction.line = none := by
  intro index member
  obtain ⟨instruction, found, -⟩ := free first (by simp)
  obtain ⟨line, after⟩ := attachOrphan_getElem? functions driver found
  obtain ⟨other, atIndex, unassigned⟩ := free index (by simp [member])
  have differ : index ≠ first := by
    rintro rfl
    exact notLater member
  exact ⟨other, by rw [after, if_neg differ, atIndex], unassigned⟩

theorem attachEach_assigns (functions : FunctionSet) (driver : FunctionId) (orphans : List Nat)
    (distinct : orphans.Nodup) {listing : Listing} (consistent : listing.Consistent)
    (free : ∀ index ∈ orphans, ∃ instruction, listing.instructions[index]? = some instruction ∧
      instruction.line = none) :
    listing.Continues (orphans.foldl (attachOrphan functions driver) listing) ∧
      ∀ index ∈ orphans,
        (orphans.foldl (attachOrphan functions driver) listing).isAssigned index := by
  induction orphans generalizing listing with
  | nil => exact ⟨Continues.refl _, by simp⟩
  | cons first rest ih =>
    obtain ⟨instruction, found, unassigned⟩ := free first (by simp)
    obtain ⟨notLater, distinct⟩ := List.nodup_cons.1 distinct
    have step := attachOrphan_continues functions driver consistent found unassigned
    obtain ⟨line, after⟩ := attachOrphan_getElem? functions driver found
    obtain ⟨continues, assigns⟩ := ih distinct (step.consistent consistent)
      (attachOrphan_free functions driver notLater free)
    refine ⟨step.trans continues, ?_⟩
    intro index member
    rcases List.mem_cons.1 member with rfl | member
    · apply continues.assigned
      simp [isAssigned, after]
    · exact assigns index member

theorem mem_orphans_iff (listing : Listing) (index : Nat) :
    index ∈ (List.range listing.instructions.size).filter (fun index =>
      (listing.instructions[index]?).any (·.line.isNone)) ↔
      ∃ instruction, listing.instructions[index]? = some instruction ∧
        instruction.line = none := by
  simp only [List.mem_filter, List.mem_range, Option.any_eq_true, Option.isNone_iff_eq_none]
  constructor
  · rintro ⟨-, found⟩
    exact found
  · rintro ⟨instruction, atIndex, unassigned⟩
    exact ⟨(Array.getElem?_eq_some_iff.1 atIndex).1, instruction, atIndex, unassigned⟩

theorem attachOrphans_assigns (functions : FunctionSet) (driver : FunctionId) {listing : Listing}
    (consistent : listing.Consistent) :
    listing.Continues (attachOrphans functions driver listing) ∧
      ∀ index < listing.instructions.size,
        (attachOrphans functions driver listing).isAssigned index := by
  obtain ⟨continues, assigns⟩ := attachEach_assigns functions driver _
    (List.nodup_range.filter _) consistent
    fun index member => (mem_orphans_iff listing index).1 member
  refine ⟨continues, ?_⟩
  intro index bound
  have found := Array.getElem?_eq_getElem bound
  cases line : listing.instructions[index].line with
  | none => exact assigns index ((mem_orphans_iff listing index).2 ⟨_, found, line⟩)
  | some id =>
    apply continues.assigned
    simp [isAssigned, found, line]

theorem assignFunctions_outline (functions : FunctionSet) (driver : FunctionId)
    (listing : Listing) : (assignFunctions functions driver listing).outline = listing.outline := by
  simp [assignFunctions, outline, Function.comp_def]

theorem assignFunctions_lt (functions : FunctionSet) (driver : FunctionId) (listing : Listing)
    (known : driver < functions.size) (line : SourceLine)
    (member : line ∈ (assignFunctions functions driver listing).lines) :
    line.function < functions.size := by
  simp only [assignFunctions, Array.mem_map] at member
  obtain ⟨old, -, rfl⟩ := member
  cases owner : old.instructions.head?.bind functions.smallestEnclosing? with
  | none => simpa [owner] using known
  | some id =>
    obtain ⟨address, -, found⟩ := Option.bind_eq_some_iff.1 owner
    simpa [owner] using FunctionSet.smallestEnclosing?_lt found

theorem withShortPaths_map {A : Type} {read : SourceFile → A}
    (keeps : ∀ (file : SourceFile) (path : String), read { file with shortPath := path } = read file)
    (files : List SourceFile) (paths : List String) :
    (withShortPaths files paths).map read = files.map read := by
  fun_induction withShortPaths files paths with
  | case1 => rfl
  | case2 _ _ _ _ ih => simp [ih]
  | case3 => rfl
  | case4 _ _ _ _ _ ih => simp [ih, keeps]

theorem shortenPaths_files {A : Type} {read : SourceFile → A}
    (keeps : ∀ (file : SourceFile) (path : String), read { file with shortPath := path } = read file)
    (listing : Listing) : listing.shortenPaths.files.map read = listing.files.map read := by
  simp only [shortenPaths, List.map_toArray, withShortPaths_map keeps, ← Array.toList_map,
    Array.toArray_toList]

theorem shortenPaths_outline (listing : Listing) :
    listing.shortenPaths.outline = listing.outline := by
  rw [outline, shortenPaths_files fun _ _ => rfl]
  rfl

/-- Every reference in a listing leads somewhere, and each instruction belongs to one line. -/
structure Sound (functions : FunctionSet) (listing : Listing) : Prop where
  lined : ∀ instruction ∈ listing.instructions, ∃ (id : LineId) (line : SourceLine),
    instruction.line = some id ∧ listing.lines[id]? = some line ∧
      instruction.opcode.address ∈ line.instructions
  listedOnce : ∀ instruction ∈ listing.instructions,
    (listing.lines.toList.flatMap (·.instructions)).count instruction.opcode.address = 1
  listed : ∀ line ∈ listing.lines, ∀ address ∈ line.instructions,
    ∃ instruction ∈ listing.instructions, instruction.opcode.address = address
  numbered : ∀ (file : FileId) (number : UInt32) (id : LineId),
    listing.numbered? file number = some id ↔ ∃ line : SourceLine,
      listing.lines[id]? = some line ∧ line.file = file ∧ line.number = number
  places : ∀ (m n : LineId) (a b : SourceLine), listing.lines[m]? = some a →
    listing.lines[n]? = some b → a.file = b.file → a.number = b.number → m = n
  paths : ∀ (f g : FileId) (a b : SourceFile), listing.files[f]? = some a →
    listing.files[g]? = some b → a.path = b.path → f = g
  owners : ∀ line ∈ listing.lines, line.function < functions.size
  files : ∀ line ∈ listing.lines, line.file < listing.files.size

theorem Consistent.nodup {listing : Listing} (consistent : listing.Consistent) :
    (listing.lines.toList.flatMap (·.instructions)).Nodup := by
  refine List.nodup_flatMap.2 ⟨?_, pairwise_toList ?_⟩
  · intro line member
    obtain ⟨id, found⟩ := Array.mem_iff_getElem?.1 (Array.mem_toList_iff.1 member)
    exact consistent.distinct id line found
  · intro m n a b less atM atN address inFirst inSecond
    exact Nat.ne_of_lt less (consistent.lister_unique atM atN inFirst inSecond)

theorem Consistent.sound {listing : Listing} (consistent : listing.Consistent)
    (assigned : ∀ index < listing.instructions.size, listing.isAssigned index)
    {functions : FunctionSet} (owners : ∀ line ∈ listing.lines, line.function < functions.size) :
    listing.Sound functions := by
  have lined : ∀ instruction ∈ listing.instructions, ∃ (id : LineId) (line : SourceLine),
      instruction.line = some id ∧ listing.lines[id]? = some line ∧
        instruction.opcode.address ∈ line.instructions := by
    intro instruction member
    obtain ⟨index, bound, rfl⟩ := Array.mem_iff_getElem.1 member
    have found := Array.getElem?_eq_getElem bound
    have some := assigned index bound
    rw [isAssigned, found, Option.any_some, Option.isSome_iff_exists] at some
    obtain ⟨id, line⟩ := some
    have known := Array.getElem?_eq_getElem (consistent.assigned index _ id found line)
    exact ⟨id, _, line, known, (consistent.listed id _ _ known).2 ⟨index, _, found, rfl, line⟩⟩
  refine ⟨lined, ?_, ?_, consistent.numbered, ?_, consistent.paths, owners, ?_⟩
  · intro instruction member
    obtain ⟨id, line, -, found, listed⟩ := lined instruction member
    refine List.count_eq_one_of_mem consistent.nodup (List.mem_flatMap.2 ⟨line, ?_, listed⟩)
    exact Array.mem_toList_iff.2 (Array.mem_of_getElem? found)
  · intro line member address listed
    obtain ⟨id, bound, rfl⟩ := Array.mem_iff_getElem.1 member
    obtain ⟨index, instruction, found, same, -⟩ :=
      (consistent.listed id _ address (Array.getElem?_eq_getElem bound)).1 listed
    exact ⟨instruction, Array.mem_of_getElem? found, same⟩
  · exact fun m n a b first second => consistent.place_unique first second
  · intro line member
    obtain ⟨id, bound, rfl⟩ := Array.mem_iff_getElem.1 member
    have found := (consistent.numbered _ _ id).2 ⟨_, Array.getElem?_eq_getElem bound, rfl, rfl⟩
    obtain ⟨file, atFile, -⟩ := Option.bind_eq_some_iff.1 found
    exact (Array.getElem?_eq_some_iff.1 atFile).1

def ofRows (settings : Settings) (index : EntryIndex) (symbols : List Symbol) (driver : FunctionId)
    (found : List Opcode) : Listing :=
  (index.units.flatMap fun unit => LineExtent.ofRows (symbolStarts symbols) settings.minLineBytes
    unit.rows).foldl (attach driver) (ofOpcodes found)

def withTexts (settings : Settings) (files : FileSystem) (driver : FunctionId)
    (listing : Listing) : Listing :=
  if settings.loadSourceText then loadTexts files settings.searchPaths driver listing else listing

def finish (functions : FunctionSet) (driver : FunctionId) (listing : Listing) : Listing :=
  shortenPaths (assignFunctions functions driver listing)

theorem build_eq_finish (settings : Settings) (files : FileSystem) (index : EntryIndex)
    (symbols : List Symbol) (functions : FunctionSet) (driver : FunctionId) (found : List Opcode) :
    build settings files index symbols functions driver found =
      finish functions driver (attachOrphans functions driver
        (withTexts settings files driver (ofRows settings index symbols driver found))) := rfl

theorem ofRows_continues (settings : Settings) (index : EntryIndex) (symbols : List Symbol)
    (driver : FunctionId) {found : List Opcode}
    (ascending : found.Pairwise fun a b => a.address < b.address) :
    (ofOpcodes found).Continues (ofRows settings index symbols driver found) :=
  Continues.foldl _ _ _ fun _ extent _ continues =>
    attach_continues (continues.consistent (ofOpcodes_consistent found ascending)) driver extent

theorem withTexts_continues (settings : Settings) (files : FileSystem) (driver : FunctionId)
    (listing : Listing) : listing.Continues (withTexts settings files driver listing) := by
  unfold withTexts
  split
  · exact loadTexts_continues files settings.searchPaths driver listing
  · exact Continues.refl listing

theorem finish_outline (functions : FunctionSet) (driver : FunctionId) (listing : Listing) :
    (finish functions driver listing).outline = listing.outline :=
  (shortenPaths_outline _).trans (assignFunctions_outline functions driver listing)

theorem build_continues (settings : Settings) (files : FileSystem) (index : EntryIndex)
    (symbols : List Symbol) (functions : FunctionSet) (driver : FunctionId) (found : List Opcode)
    (ascending : found.Pairwise fun a b => a.address < b.address) :
    (ofOpcodes found).Continues
        (build settings files index symbols functions driver found) ∧
      ∀ n < found.length,
        (build settings files index symbols functions driver found).isAssigned n := by
  have loaded := (ofRows_continues settings index symbols driver ascending).trans
    (withTexts_continues settings files driver _)
  obtain ⟨orphaned, assigns⟩ := attachOrphans_assigns functions driver
    (loaded.consistent (ofOpcodes_consistent found ascending))
  have finished := Continues.of_outline (finish_outline functions driver (attachOrphans functions
    driver (withTexts settings files driver (ofRows settings index symbols driver found)))).symm
  rw [build_eq_finish]
  refine ⟨loaded.trans (orphaned.trans finished), ?_⟩
  intro n bound
  have size : (withTexts settings files driver
      (ofRows settings index symbols driver found)).instructions.size = found.length := by
    have lengths := congrArg List.length loaded.code
    simpa [code, ofOpcodes] using lengths
  exact finished.assigned n (assigns n (size ▸ bound))

theorem build_sound (settings : Settings) (files : FileSystem) (index : EntryIndex)
    (symbols : List Symbol) (functions : FunctionSet) (driver : FunctionId) (found : List Opcode)
    (ascending : found.Pairwise fun a b => a.address < b.address)
    (known : driver < functions.size) :
    (build settings files index symbols functions driver found).code = found ∧
      (build settings files index symbols functions driver found).Sound functions := by
  obtain ⟨continues, assigned⟩ :=
    build_continues settings files index symbols functions driver found ascending
  have code : (build settings files index symbols functions driver found).code = found := by
    rw [continues.code]
    simp [Listing.code, ofOpcodes, Function.comp_def]
  have size : (build settings files index symbols functions driver found).instructions.size =
      found.length := by
    simpa [Listing.code] using congrArg List.length code
  refine ⟨code, (continues.consistent (ofOpcodes_consistent found ascending)).sound ?_ ?_⟩
  · intro n bound
    exact assigned n (size ▸ bound)
  · intro line member
    -- shortening paths leaves the lines alone
    exact assignFunctions_lt functions driver _ known line member

/-- The mapping of any code is sound: every instruction has a line, which is the only one that lists
it, and every line has a place of its own, a file and a function. -/
theorem mapping_sound (settings : Settings) (files : FileSystem) (disassemble : Disassembler)
    (binary : Binary) (index : EntryIndex) (described : FunctionSet) :
    let found := opcodes disassemble binary.code
    let (driver, functions) :=
      (described.withSymbolStubs settings.minLineBytes binary.functionSymbols).withDriver
        settings.driverName found
    let listing := build settings files index binary.functionSymbols functions driver found
    listing.code = found ∧ listing.Sound functions :=
  build_sound settings files index binary.functionSymbols _ _ _
    (opcodes_ascending disassemble binary.code) (FunctionSet.withDriver_lt _ _ _)

end SourceScope.Listing
