import SourceScope.Proofs.Line.Extent
import SourceScope.Proofs.Listing.Lookup
import SourceScope.Proofs.Listing.Sound

set_option autoImplicit false

namespace SourceScope.Listing

def placeOf? (listing : Listing) (id : LineId) : Option (String × UInt32) := do
  let line ← listing.lines[id]?
  let file ← listing.files[line.file]?
  return (file.path, line.number)

def lineOfIndex? (listing : Listing) (index : Nat) : Option LineId :=
  (listing.instructions[index]?).bind (·.line)

structure Keeps (a b : Listing) : Prop where
  places : ∀ (id : LineId) (place : String × UInt32), a.placeOf? id = some place →
    b.placeOf? id = some place
  lines : ∀ (index : Nat) (id : LineId), a.lineOfIndex? index = some id →
    b.lineOfIndex? index = some id

theorem Keeps.refl (listing : Listing) : listing.Keeps listing :=
  ⟨fun _ _ found => found, fun _ _ found => found⟩

theorem Keeps.trans {a b c : Listing} (first : a.Keeps b) (second : b.Keeps c) : a.Keeps c where
  places id place found := second.places id place (first.places id place found)
  lines index id found := second.lines index id (first.lines index id found)

theorem placeOf?_eq_some_iff (listing : Listing) (id : LineId) (place : String × UInt32) :
    listing.placeOf? id = some place ↔ ∃ line file, listing.lines[id]? = some line ∧
      listing.files[line.file]? = some file ∧ file.path = place.1 ∧ line.number = place.2 := by
  obtain ⟨path, number⟩ := place
  simp only [placeOf?, bind, Option.bind_eq_some_iff, pure, Option.some.injEq, Prod.mk.injEq]
  constructor
  · rintro ⟨line, atId, file, atFile, same⟩
    exact ⟨line, file, atId, atFile, same⟩
  · rintro ⟨line, file, atId, atFile, same⟩
    exact ⟨line, atId, file, atFile, same⟩

theorem Keeps.of_outline {a b : Listing} (same : a.outline = b.outline) : a.Keeps b := by
  constructor
  case places =>
    intro id place found
    obtain ⟨line, file, atId, atFile, path, number⟩ := (placeOf?_eq_some_iff a id place).1 found
    obtain ⟨newLine, atNew, sameFile, sameNumber, -⟩ := line_of_outline same.symm atId
    obtain ⟨newFile, atNewFile, samePath, -⟩ := file_of_outline same.symm atFile
    exact (placeOf?_eq_some_iff b id place).2 ⟨newLine, newFile, atNew, sameFile ▸ atNewFile,
      samePath.trans path, sameNumber.trans number⟩
  case lines =>
    intro index id found
    rwa [lineOfIndex?, ← instructions_of_outline same]

theorem fileId_keeps (listing : Listing) (path : String) :
    listing.Keeps (listing.fileId path).2 := by
  constructor
  case places =>
    intro id place found
    obtain ⟨line, file, atId, atFile, same⟩ := (placeOf?_eq_some_iff listing id place).1 found
    refine (placeOf?_eq_some_iff _ id place).2 ⟨line, file, ?_, ?_, same⟩
    · rwa [fileId_lines]
    · unfold fileId
      split
      next => exact atFile
      next =>
        have bound := (Array.getElem?_eq_some_iff.1 atFile).1
        simpa [Array.getElem?_push, Nat.ne_of_lt bound] using atFile
  case lines =>
    intro index id found
    rwa [lineOfIndex?, fileId_instructions]

theorem lineId_keeps (listing : Listing) (file : FileId) (number : UInt32)
    (function : FunctionId) : listing.Keeps (listing.lineId file number function).2 := by
  constructor
  case places =>
    intro id place found
    obtain ⟨line, f, atId, atFile, path, same⟩ := (placeOf?_eq_some_iff listing id place).1 found
    unfold lineId
    split
    next => exact found
    next =>
      have bound := (Array.getElem?_eq_some_iff.1 atId).1
      refine (placeOf?_eq_some_iff _ id place).2 ?_
      by_cases here : file = line.file
      · refine ⟨line, { f with lines := insertLine number listing.lines.size f.lines }, ?_, ?_, path,
          same⟩
        · simpa [Array.getElem?_push, Nat.ne_of_lt bound] using atId
        · simp [Array.getElem?_modify, here, atFile]
      · refine ⟨line, f, ?_, ?_, path, same⟩
        · simpa [Array.getElem?_push, Nat.ne_of_lt bound] using atId
        · simpa [Array.getElem?_modify, here] using atFile
  case lines =>
    intro index id found
    rwa [lineOfIndex?, lineId_instructions]

theorem lineId_place {listing : Listing} (consistent : listing.Consistent) {file : FileId}
    {found : SourceFile} (atFile : listing.files[file]? = some found) (number : UInt32)
    (function : FunctionId) :
    (listing.lineId file number function).2.placeOf? (listing.lineId file number function).1 =
      some (found.path, number) := by
  refine (placeOf?_eq_some_iff _ _ _).2 ?_
  unfold lineId
  split
  next id known =>
    obtain ⟨line, atId, rfl, rfl⟩ := (consistent.numbered file number id).1 known
    exact ⟨line, found, atId, atFile, rfl, rfl⟩
  next =>
    refine ⟨⟨file, number, "", [], function, false, .zero⟩,
      { found with lines := insertLine number listing.lines.size found.lines }, ?_, ?_, rfl, rfl⟩
    · simp
    · simp [Array.getElem?_modify, atFile]

theorem give_keeps {listing : Listing} {index : Nat} {instruction : Instruction}
    (found : listing.instructions[index]? = some instruction) (free : instruction.line = none)
    (address : UInt32) (line : LineId) : listing.Keeps (listing.give index address line) := by
  constructor
  case places =>
    intro id place known
    obtain ⟨old, file, atId, atFile, same⟩ := (placeOf?_eq_some_iff listing id place).1 known
    exact (placeOf?_eq_some_iff _ id place).2 ⟨_, file, give_lines atId index address, atFile, same⟩
  case lines =>
    intro n id known
    rw [lineOfIndex?, give_getElem? found]
    by_cases same : n = index
    · simp [lineOfIndex?, same, found, free] at known
    · rwa [if_neg same]

theorem assignTo_keeps (line : LineId) (stop : UInt32) (count index : Nat) (listing : Listing) :
    listing.Keeps (assignTo line stop count index listing) := by
  fun_induction assignTo line stop count index listing with
  | case1 => exact Keeps.refl _
  | case2 => exact Keeps.refl _
  | case3 => exact Keeps.refl _
  | case4 _ _ _ _ _ _ _ _ ih => exact ih
  | case5 count index listing instruction found address before free ih =>
    have unassigned : instruction.line = none := by simpa using free
    exact (give_keeps found unassigned instruction.opcode.address line).trans ih

theorem attach_keeps (driver : FunctionId) (listing : Listing) (extent : LineExtent) :
    listing.Keeps (attach driver listing extent) :=
  ((fileId_keeps listing extent.file).trans (lineId_keeps _ _ _ _)).trans (assignTo_keeps _ _ _ _ _)

theorem setTexts_keeps (driver : FunctionId) (file : FileId) (number : Nat) (texts : List String)
    (listing : Listing) : listing.Keeps (setTexts driver file number texts listing) := by
  induction texts generalizing number listing with
  | nil => exact Keeps.refl _
  | cons text rest ih =>
    have line := lineId_keeps listing file (UInt32.ofNat number) driver
    have named := Keeps.of_outline (outline_modifyLine
      (listing.lineId file (UInt32.ofNat number) driver).2
      (listing.lineId file (UInt32.ofNat number) driver).1 (fun l => { l with text })
      (fun _ => ⟨rfl, rfl, rfl⟩)).symm
    exact (line.trans named).trans (ih (number + 1) _)

theorem loadFile_keeps (files : FileSystem) (searchPaths : List String) (driver : FunctionId)
    (listing : Listing) (file : FileId) :
    listing.Keeps (loadFile files searchPaths driver listing file) := by
  unfold loadFile
  split
  next => exact Keeps.refl _
  next text found =>
    exact (setTexts_keeps driver file 1 (textLines text) listing).trans
      (Keeps.of_outline (outline_modifyFile _ file (fun f => { f with isLoaded := true })
        (fun _ => ⟨rfl, rfl⟩)).symm)

theorem Keeps.foldl {A : Type} {step : Listing → A → Listing} (items : List A) (listing : Listing)
    (each : ∀ (a : Listing) (item : A), item ∈ items → a.Keeps (step a item)) :
    listing.Keeps (items.foldl step listing) := by
  induction items generalizing listing with
  | nil => exact Keeps.refl listing
  | cons item rest ih =>
    refine (each listing item (by simp)).trans (ih _ ?_)
    intro a later member
    exact each a later (by simp [member])

theorem stubLine_keeps (listing : Listing) (name : String) (function : FunctionId) :
    listing.Keeps (listing.stubLine name function).2 := by
  have marked := outline_modifyFile (listing.fileId name).2 (listing.fileId name).1
    (fun f => { f with isSynthetic := true }) (fun _ => ⟨rfl, rfl⟩)
  exact ((fileId_keeps listing name).trans (Keeps.of_outline marked.symm)).trans
    (lineId_keeps (listing.stubFile name).2 (listing.stubFile name).1 1 function)

theorem attachOrphan_keeps (functions : FunctionSet) (driver : FunctionId) {listing : Listing}
    {index : Nat} {instruction : Instruction}
    (found : listing.instructions[index]? = some instruction) (free : instruction.line = none) :
    listing.Keeps (attachOrphan functions driver listing index) := by
  obtain ⟨name, function, same⟩ := attachOrphan_outline functions driver found
  rw [← stubLine_instructions listing name function] at found
  exact (stubLine_keeps listing name function).trans
    ((give_keeps found free _ _).trans (Keeps.of_outline same.symm))

theorem attachEach_keeps (functions : FunctionSet) (driver : FunctionId) (orphans : List Nat)
    (distinct : orphans.Nodup) {listing : Listing}
    (free : ∀ index ∈ orphans, ∃ instruction, listing.instructions[index]? = some instruction ∧
      instruction.line = none) :
    listing.Keeps (orphans.foldl (attachOrphan functions driver) listing) := by
  induction orphans generalizing listing with
  | nil => exact Keeps.refl listing
  | cons first rest ih =>
    obtain ⟨instruction, found, unassigned⟩ := free first (by simp)
    obtain ⟨notLater, distinct⟩ := List.nodup_cons.1 distinct
    exact (attachOrphan_keeps functions driver found unassigned).trans
      (ih distinct (attachOrphan_free functions driver notLater free))

theorem build_keeps (settings : Settings) (files : FileSystem) (index : EntryIndex)
    (symbols : List Symbol) (functions : FunctionSet) (driver : FunctionId) (found : List Opcode) :
    (ofRows settings index symbols driver found).Keeps
      (build settings files index symbols functions driver found) := by
  rw [build_eq_finish]
  generalize ofRows settings index symbols driver found = listing
  have texts : listing.Keeps (withTexts settings files driver listing) := by
    unfold withTexts
    split
    · exact Keeps.foldl _ _ fun a file _ => loadFile_keeps files settings.searchPaths driver a file
    · exact Keeps.refl listing
  generalize withTexts settings files driver listing = listing at texts
  have orphans := attachEach_keeps functions driver _ (List.nodup_range.filter _)
    fun index => (mem_orphans_iff listing index).1
  have finished := Keeps.of_outline
    (finish_outline functions driver (attachOrphans functions driver listing)).symm
  exact texts.trans (orphans.trans finished)

theorem assignTo_getElem? (line : LineId) (stop : UInt32) (count index : Nat) {listing : Listing}
    (ascending : listing.code.Pairwise fun a b => a.address < b.address) {n : Nat} {i : Instruction}
    (found : listing.instructions[n]? = some i) :
    (assignTo line stop count index listing).instructions[n]? =
      if index ≤ n ∧ n < index + count ∧ i.opcode.address < stop ∧ i.line = none then
        some { i with line := some line }
      else some i := by
  fun_induction assignTo line stop count index listing generalizing i with
  | case1 => simp [found]; omega
  | case2 count index listing missing =>
    have bound := (Array.getElem?_eq_some_iff.1 found).1
    have behind := Array.getElem?_eq_none_iff.1 missing
    rw [found, if_neg (by omega)]
  | case3 count index listing instruction atIndex address past =>
    rw [found, if_neg]
    rintro ⟨before, -, less, -⟩
    exact UInt32.not_lt.2 (UInt32.le_trans past (address_le ascending before atIndex found)) less
  | case4 count index listing instruction atIndex address before taken ih =>
    rw [ih ascending found]
    by_cases here : n = index
    · obtain rfl := here
      obtain rfl := Option.some.inj (found.symm.trans atIndex)
      have assigned : i.line ≠ none := by
        intro free
        simp [free] at taken
      simp [assigned]
    · have later : index + 1 ≤ n ∧ n < index + 1 + count ↔
          index ≤ n ∧ n < index + (count + 1) := by omega
      simp only [← and_assoc, later]
  | case5 count index listing instruction atIndex address before free ih =>
    have unassigned : instruction.line = none := by simpa using free
    have kept : (listing.give index address line).code.Pairwise fun a b => a.address < b.address := by
      rwa [give_code]
    have after := give_getElem? atIndex address line n
    by_cases here : n = index
    · obtain rfl := here
      obtain rfl := Option.some.inj (found.symm.trans atIndex)
      rw [if_pos rfl] at after
      have less : i.opcode.address < stop := UInt32.not_le.1 before
      rw [ih kept after, if_neg (by simp), if_pos ⟨Nat.le_refl n, by omega, less, unassigned⟩]
    · rw [if_neg here, found] at after
      have later : index + 1 ≤ n ∧ n < index + 1 + count ↔
          index ≤ n ∧ n < index + (count + 1) := by omega
      rw [ih kept after]
      simp only [← and_assoc, later]

theorem starts_partitioned {listing : Listing}
    (ascending : listing.code.Pairwise fun a b => a.address < b.address) (start : UInt32) :
    Partitioned (fun i : Instruction => decide (i.opcode.address < start)) listing.instructions := by
  refine Partitioned.of_pairwise (addresses_pairwise ascending) fun a b less below => ?_
  rw [decide_eq_true_iff] at below ⊢
  exact UInt32.lt_trans less below

theorem offered_iff_holds {listing : Listing}
    (ascending : listing.code.Pairwise fun a b => a.address < b.address) (extent : LineExtent)
    {n : Nat} {i : Instruction} (found : listing.instructions[n]? = some i) (free : i.line = none) :
    let first := partitionPoint (·.opcode.address < extent.start) listing.instructions
    (first ≤ n ∧ n < first + (listing.instructions.size - first) ∧ i.opcode.address < extent.stop ∧
      i.line = none) ↔ extent.holds i.opcode.address = true := by
  have bound := (Array.getElem?_eq_some_iff.1 found).1
  have before := lt_partitionPoint_iff (starts_partitioned ascending extent.start) found
  intro first
  have reached : first ≤ n ↔ extent.start ≤ i.opcode.address := by
    rw [← Nat.not_lt, before]
    simp
  have inside : n < first + (listing.instructions.size - first) := by omega
  simp [reached, inside, free, LineExtent.holds]

theorem attach_getElem? {listing : Listing} (consistent : listing.Consistent) (driver : FunctionId)
    (extent : LineExtent) {n : Nat} {i : Instruction} (found : listing.instructions[n]? = some i)
    (free : i.line = none) :
    ∃ line, (attach driver listing extent).placeOf? line = some (extent.file, extent.line) ∧
      (attach driver listing extent).instructions[n]? =
        some (if extent.holds i.opcode.address then { i with line := some line } else i) := by
  obtain ⟨file, atFile, path⟩ := fileId_path listing extent.file
  have named := fileId_continues listing extent.file
  have numbered := lineId_continues (listing.fileId extent.file).2 (listing.fileId extent.file).1
    extent.line driver (fileId_lt listing extent.file)
  have place := lineId_place (named.consistent consistent) atFile extent.line driver
  rw [path] at place
  have kept : ((listing.fileId extent.file).2.lineId (listing.fileId extent.file).1 extent.line
      driver).2.instructions = listing.instructions := by
    rw [lineId_instructions, fileId_instructions]
  have ascending := ((named.trans numbered).consistent consistent).ascending
  simp only [attach]
  generalize (listing.fileId extent.file).2.lineId (listing.fileId extent.file).1 extent.line
    driver = target at place kept ascending
  refine ⟨target.1, (assignTo_keeps _ _ _ _ target.2).places _ _ place, ?_⟩
  rw [← kept] at found
  rw [assignTo_getElem? _ _ _ _ ascending found]
  simp only [offered_iff_holds ascending extent found free]
  split <;> rfl

theorem attachEach_place {listing : Listing} (consistent : listing.Consistent) (driver : FunctionId)
    (extents : List LineExtent) {n : Nat} {i : Instruction}
    (found : listing.instructions[n]? = some i) (free : i.line = none) {extent : LineExtent}
    (first : extents.find? (·.holds i.opcode.address) = some extent) :
    ∃ line, (extents.foldl (attach driver) listing).lineOfIndex? n = some line ∧
      (extents.foldl (attach driver) listing).placeOf? line = some (extent.file, extent.line) := by
  induction extents generalizing listing with
  | nil => cases first
  | cons next rest ih =>
    obtain ⟨line, place, after⟩ := attach_getElem? consistent driver next found free
    rw [List.foldl_cons]
    by_cases holds : next.holds i.opcode.address = true
    · simp only [List.find?_cons, holds] at first
      obtain rfl := Option.some.inj first
      have later : (attach driver listing next).Keeps
          (rest.foldl (attach driver) (attach driver listing next)) :=
        Keeps.foldl rest _ fun a extent _ => attach_keeps driver a extent
      refine ⟨line, later.lines n line ?_, later.places line _ place⟩
      simp [lineOfIndex?, after, holds]
    · simp only [List.find?_cons, Bool.not_eq_true _ ▸ holds] at first
      refine ih ((attach_continues consistent driver next).consistent consistent) ?_ first
      simpa [holds] using after

def tableRows (index : EntryIndex) : List (LineRow × Option LineRow) :=
  index.units.flatMap fun unit => LineRow.followed unit.rows

theorem build_place (settings : Settings) (files : FileSystem) (index : EntryIndex)
    (symbols : List Symbol) (functions : FunctionSet) (driver : FunctionId) {found : List Opcode}
    (ascending : found.Pairwise fun a b => a.address < b.address) {n : Nat} {o : Opcode}
    (atIndex : found[n]? = some o) {extent : LineExtent}
    (first : ((tableRows index).filterMap fun pair => LineExtent.ofRow? (symbolStarts symbols)
      settings.minLineBytes pair.1 pair.2).find? (·.holds o.address) = some extent) :
    ∃ line, (build settings files index symbols functions driver found).lineOfIndex? n = some line ∧
      (build settings files index symbols functions driver found).placeOf? line =
        some (extent.file, extent.line) := by
  have extents : (tableRows index).filterMap (fun pair => LineExtent.ofRow? (symbolStarts symbols)
      settings.minLineBytes pair.1 pair.2) =
        index.units.flatMap fun unit => LineExtent.ofRows (symbolStarts symbols)
          settings.minLineBytes unit.rows := by
    simp only [tableRows, List.filterMap_flatMap, LineExtent.ofRows_eq_filterMap]
  rw [extents] at first
  have start : (ofOpcodes found).instructions[n]? = some ⟨o, none⟩ := by
    simp [ofOpcodes, atIndex]
  obtain ⟨line, atLine, place⟩ := attachEach_place (ofOpcodes_consistent found ascending) driver _
    start rfl first
  have kept := build_keeps settings files index symbols functions driver found
  exact ⟨line, kept.lines n line atLine, kept.places line _ place⟩

end SourceScope.Listing
