import SourceScope.Proofs.Listing.Texts

set_option autoImplicit false

namespace SourceScope.Listing

section Orphans

variable {listing : Listing}

def ownerOf (functions : FunctionSet) (driver : FunctionId) (address : UInt32) : FunctionId :=
  (functions.smallestEnclosing? address).getD driver

def stubPath (functions : FunctionSet) (driver : FunctionId) (address : UInt32) : String :=
  ((functions.get? (ownerOf functions driver address)).map (·.name)).getD ""

def stub (listing : Listing) (index : Nat) (address : UInt32) (line : LineId) : Listing :=
  { listing with
    lines := listing.lines.modify line fun l =>
      { l with isStub := true, instructions := l.instructions ++ [address] }
    instructions := listing.instructions.modify index fun i => { i with line := some line } }

def stubFor (functions : FunctionSet) (driver : FunctionId) (listing : Listing)
    (address : UInt32) : LineId × Listing :=
  listing.stubLine (stubPath functions driver address) (ownerOf functions driver address)

theorem attachOrphan_eq_stub (functions : FunctionSet) (driver : FunctionId) {index : Nat}
    {i : Instruction} (found : listing.instructions[index]? = some i) :
    attachOrphan functions driver listing index =
      (stubFor functions driver listing i.opcode.address).2.stub index i.opcode.address
        (stubFor functions driver listing i.opcode.address).1 := by
  simp only [attachOrphan, found]
  rfl

theorem fileId_contentAt (listing : Listing) (path : String) (file : FileId) (number : UInt32) :
    (listing.fileId path).2.contentAt file number = listing.contentAt file number :=
  contentAt_congr (fileId_numbered? listing path file number) (by rw [fileId_lines])

theorem stubFile_contentAt (listing : Listing) (name : String) (file : FileId) (number : UInt32) :
    (listing.stubFile name).2.contentAt file number = listing.contentAt file number := by
  have marked := outline_modifyFile (listing.fileId name).2 (listing.fileId name).1
    (fun f => { f with isSynthetic := true }) (fun _ => ⟨rfl, rfl⟩)
  rw [← fileId_contentAt listing name]
  exact contentAt_congr (numbered?_of_outline marked file number) rfl

theorem stubFile_retains (listing : Listing) (name : String) :
    listing.Retains (listing.stubFile name).2 := by
  have marked := outline_modifyFile (listing.fileId name).2 (listing.fileId name).1
    (fun f => { f with isSynthetic := true }) (fun _ => ⟨rfl, rfl⟩)
  exact (fileId_retains listing name).trans (Retains.of_outline marked.symm)

theorem stubFile_path? (listing : Listing) (name : String) :
    (listing.stubFile name).2.path? (listing.stubFile name).1 = some name := by
  obtain ⟨file, found, path⟩ := fileId_path listing name
  simp [stubFile, path?, Array.getElem?_modify, found, path]

theorem stubLine_decorates (consistent : listing.Consistent) (name : String)
    (function : FunctionId) :
    (listing.stubFile name).2.Decorates (listing.stubLine name function).2 :=
  lineId_decorates ((stubFile_continues listing name).consistent consistent)
    (stubFile_lt listing name) 1 function

theorem stub_contentAt (consistent : listing.Consistent) {file : FileId} {number : UInt32}
    {line : LineId} (numbered : listing.numbered? file number = some line) (index : Nat)
    (address : UInt32) (other : FileId) (wanted : UInt32) :
    (listing.stub index address line).contentAt other wanted =
      if other = file ∧ wanted = number then ((listing.contentAt other wanted).1 ++ [address], true)
      else listing.contentAt other wanted := by
  obtain ⟨old, atLine, ownFile, ownNumber⟩ := (consistent.numbered file number line).1 numbered
  have numbers : (listing.stub index address line).numbered? other wanted =
      listing.numbered? other wanted := rfl
  split
  next here =>
    obtain ⟨rfl, rfl⟩ := here
    have after : (listing.stub index address line).lines[line]? =
        some { old with isStub := true, instructions := old.instructions ++ [address] } := by
      simp [stub, Array.getElem?_modify, atLine]
    rw [contentAt_of_numbered? numbered atLine]
    exact contentAt_of_numbered? (numbers.trans numbered) after
  next elsewhere =>
    cases found : listing.numbered? other wanted with
    | none => rw [contentAt_of_free found, contentAt_of_free (numbers.trans found)]
    | some id =>
      obtain ⟨kept, atId, keptFile, keptNumber⟩ := (consistent.numbered other wanted id).1 found
      have differ : line ≠ id := by
        rintro rfl
        obtain rfl := Option.some.inj (atLine.symm.trans atId)
        exact elsewhere ⟨keptFile.symm.trans ownFile, keptNumber.symm.trans ownNumber⟩
      rw [contentAt_of_numbered? found atId]
      refine contentAt_of_numbered? (numbers.trans found) ?_
      simpa [stub, Array.getElem?_modify, differ] using atId

theorem attachOrphan_contentAt (functions : FunctionSet) (driver : FunctionId)
    (consistent : listing.Consistent) {index : Nat} {i : Instruction}
    (found : listing.instructions[index]? = some i) (file : FileId) (number : UInt32) :
    (attachOrphan functions driver listing index).contentAt file number =
      if file = (listing.fileId (stubPath functions driver i.opcode.address)).1 ∧ number = 1 then
        ((listing.contentAt file number).1 ++ [i.opcode.address], true)
      else listing.contentAt file number := by
  rw [attachOrphan_eq_stub functions driver found, stubFor]
  generalize stubPath functions driver i.opcode.address = name
  generalize ownerOf functions driver i.opcode.address = function
  have decorates := stubLine_decorates consistent name function
  have same : (listing.stubLine name function).2.contentAt file number =
      listing.contentAt file number :=
    (decorates.alike.content file number).symm.trans (stubFile_contentAt listing name file number)
  have numbered : (listing.stubLine name function).2.numbered? (listing.fileId name).1 1 =
      some (listing.stubLine name function).1 :=
    lineId_numbered? _ _ 1 function (stubFile_lt listing name)
  rw [stub_contentAt decorates.consistent numbered, same]

theorem attachOrphan_retains (functions : FunctionSet) (driver : FunctionId)
    (consistent : listing.Consistent) (index : Nat) :
    listing.Retains (attachOrphan functions driver listing index) := by
  cases found : listing.instructions[index]? with
  | none =>
    simp only [attachOrphan, found]
    exact Retains.refl listing
  | some i =>
    rw [attachOrphan_eq_stub functions driver found]
    have stubbed := (stubFile_retains listing (stubPath functions driver i.opcode.address)).trans
      (stubLine_decorates consistent _ (ownerOf functions driver i.opcode.address)).retains
    exact ⟨stubbed.paths, stubbed.lines⟩

theorem attachOrphan_path? (functions : FunctionSet) (driver : FunctionId)
    (consistent : listing.Consistent) {index : Nat} {i : Instruction}
    (found : listing.instructions[index]? = some i) :
    (attachOrphan functions driver listing index).path?
        (listing.fileId (stubPath functions driver i.opcode.address)).1 =
      some (stubPath functions driver i.opcode.address) := by
  rw [attachOrphan_eq_stub functions driver found]
  exact (stubLine_decorates consistent _ _).retains.paths _ _ (stubFile_path? listing _)

theorem fileId_alike {a b : Listing} (alike : a.Alike b) (path : String) :
    (a.fileId path).1 = (b.fileId path).1 ∧ (a.fileId path).2.Alike (b.fileId path).2 := by
  have size : a.files.size = b.files.size := by
    simpa using congrArg Array.size alike.paths
  have found : a.files.findIdx? (·.path == path) = b.files.findIdx? (·.path == path) := by
    have same := congrArg (·.findIdx? (· == path)) alike.paths
    simpa [Array.findIdx?_map, Function.comp_def] using same
  refine ⟨?_, ?_, ?_, ?_, ?_⟩
  · simp only [fileId, found, size]
    split <;> rfl
  · rw [(fileId_continues a path).code, (fileId_continues b path).code, alike.code]
  · simp only [fileId, found]
    split <;> simp [alike.paths]
  · simp only [fileId, found]
    split <;> simp [alike.synthetic]
  · intro file number
    rw [fileId_contentAt, fileId_contentAt, alike.content]

theorem stubFile_alike {a b : Listing} (alike : a.Alike b) (name : String) :
    (a.stubFile name).2.Alike (b.stubFile name).2 := by
  obtain ⟨id, files⟩ := fileId_alike alike name
  have marks (listing : Listing) : (listing.stubFile name).2.files.map (·.isSynthetic) =
      ((listing.fileId name).2.files.map (·.isSynthetic)).modify (listing.fileId name).1
        fun _ => true := by
    apply Array.ext_getElem?
    intro n
    simp only [stubFile, Array.getElem?_map, Array.getElem?_modify]
    split <;> simp [Function.comp_def]
  have paths (listing : Listing) : (listing.stubFile name).2.files.map (·.path) =
      (listing.fileId name).2.files.map (·.path) := by
    simp [stubFile, map_modify]
  refine ⟨files.code, ?_, ?_, ?_⟩
  · rw [paths, paths, files.paths]
  · rw [marks, marks, files.synthetic, id]
  · intro file number
    rw [stubFile_contentAt, stubFile_contentAt, alike.content]

theorem attachOrphan_code (functions : FunctionSet) (driver : FunctionId) {index : Nat}
    {i : Instruction} (found : listing.instructions[index]? = some i) :
    (attachOrphan functions driver listing index).code = listing.code := by
  obtain ⟨name, function, same⟩ := attachOrphan_outline functions driver found
  rw [code, instructions_of_outline same, ← code, give_code, code, stubLine_instructions, ← code]

theorem attachOrphan_alike (functions : FunctionSet) (driver : FunctionId) {a b : Listing}
    (alike : a.Alike b) (aConsistent : a.Consistent) (bConsistent : b.Consistent) {index : Nat}
    {i j : Instruction} (inFirst : a.instructions[index]? = some i)
    (inSecond : b.instructions[index]? = some j) :
    (attachOrphan functions driver a index).Alike (attachOrphan functions driver b index) := by
  have same : i.opcode = j.opcode := by
    have codes := congrArg (·[index]?) alike.code
    simpa [getElem?_code, inFirst, inSecond] using codes
  have stubs : (stubFor functions driver a i.opcode.address).2.Alike
      (stubFor functions driver b j.opcode.address).2 := by
    rw [← same]
    exact (stubLine_decorates aConsistent _ _).alike.symm.trans
      ((stubFile_alike alike _).trans (stubLine_decorates bConsistent _ _).alike)
  have files (listing : Listing) {k : Instruction} (found : listing.instructions[index]? = some k) :
      (attachOrphan functions driver listing index).files =
        (stubFor functions driver listing k.opcode.address).2.files := by
    rw [attachOrphan_eq_stub functions driver found]
    rfl
  refine ⟨?_, ?_, ?_, fun file number => ?_⟩
  · rw [attachOrphan_code functions driver inFirst, attachOrphan_code functions driver inSecond,
      alike.code]
  · rw [files a inFirst, files b inSecond, stubs.paths]
  · rw [files a inFirst, files b inSecond, stubs.synthetic]
  · rw [attachOrphan_contentAt functions driver aConsistent inFirst,
      attachOrphan_contentAt functions driver bConsistent inSecond, alike.content, same,
      (fileId_alike alike _).1]

theorem attachEach_alike (functions : FunctionSet) (driver : FunctionId) {orphans : List Nat}
    (distinct : orphans.Nodup) {a b : Listing} (alike : a.Alike b) (aConsistent : a.Consistent)
    (bConsistent : b.Consistent)
    (aFree : ∀ index ∈ orphans, ∃ i, a.instructions[index]? = some i ∧ i.line = none)
    (bFree : ∀ index ∈ orphans, ∃ i, b.instructions[index]? = some i ∧ i.line = none) :
    (orphans.foldl (attachOrphan functions driver) a).Alike
      (orphans.foldl (attachOrphan functions driver) b) := by
  induction orphans generalizing a b with
  | nil => exact alike
  | cons first rest ih =>
    obtain ⟨notLater, distinct⟩ := List.nodup_cons.1 distinct
    obtain ⟨i, inFirst, iFree⟩ := aFree first (by simp)
    obtain ⟨j, inSecond, jFree⟩ := bFree first (by simp)
    exact ih distinct
      (attachOrphan_alike functions driver alike aConsistent bConsistent inFirst inSecond)
      ((attachOrphan_continues functions driver aConsistent inFirst iFree).consistent aConsistent)
      ((attachOrphan_continues functions driver bConsistent inSecond jFree).consistent bConsistent)
      (attachOrphan_free functions driver notLater aFree)
      (attachOrphan_free functions driver notLater bFree)

theorem attachOrphans_alike (functions : FunctionSet) (driver : FunctionId) {a b : Listing}
    (alike : a.Alike b) (aConsistent : a.Consistent) (bConsistent : b.Consistent)
    (instructions : a.instructions = b.instructions) :
    (attachOrphans functions driver a).Alike (attachOrphans functions driver b) := by
  have free := fun index => (mem_orphans_iff a index).1
  unfold attachOrphans
  rw [← instructions]
  refine attachEach_alike functions driver (List.nodup_range.filter _) alike aConsistent bConsistent
    free ?_
  rw [← instructions]
  exact free

structure Stubbed (functions : FunctionSet) (driver : FunctionId) (before after : Listing) :
    Prop where
  consistent : after.Consistent
  retains : before.Retains after
  stubs : ∀ (file : FileId) (number : UInt32), before.contentAt file number = ([], false) →
    after.contentAt file number = ([], false) ∨
      number = 1 ∧ ∃ address rest, after.contentAt file number = (address :: rest, true) ∧
        after.path? file = some (stubPath functions driver address)

theorem Stubbed.orphan {functions : FunctionSet} {driver : FunctionId}
    {before after : Listing} (stubbed : Stubbed functions driver before after) {index : Nat}
    {i : Instruction} (found : after.instructions[index]? = some i) (free : i.line = none) :
    Stubbed functions driver before (attachOrphan functions driver after index) := by
  have retains := attachOrphan_retains functions driver stubbed.consistent index
  refine ⟨(attachOrphan_continues functions driver stubbed.consistent found free).consistent
    stubbed.consistent, stubbed.retains.trans retains, fun file number fresh => ?_⟩
  rw [attachOrphan_contentAt functions driver stubbed.consistent found]
  have old := stubbed.stubs file number fresh
  split
  next here =>
    obtain ⟨rfl, rfl⟩ := here
    refine .inr ⟨rfl, ?_⟩
    obtain none | ⟨-, address, rest, content, path⟩ := old
    · refine ⟨i.opcode.address, [], by rw [none]; rfl, ?_⟩
      exact attachOrphan_path? functions driver stubbed.consistent found
    · exact ⟨address, _, by rw [content]; rfl, retains.paths _ _ path⟩
  next elsewhere =>
    refine old.imp id fun ⟨one, address, rest, content, path⟩ => ?_
    exact ⟨one, address, rest, content, retains.paths _ _ path⟩

theorem Stubbed.orphans {functions : FunctionSet} {driver : FunctionId} {orphans : List Nat}
    (distinct : orphans.Nodup) {before after : Listing}
    (stubbed : Stubbed functions driver before after)
    (free : ∀ index ∈ orphans, ∃ i, after.instructions[index]? = some i ∧ i.line = none) :
    Stubbed functions driver before (orphans.foldl (attachOrphan functions driver) after) := by
  induction orphans generalizing after with
  | nil => exact stubbed
  | cons first rest ih =>
    obtain ⟨notLater, distinct⟩ := List.nodup_cons.1 distinct
    obtain ⟨i, found, unassigned⟩ := free first (by simp)
    exact ih distinct (stubbed.orphan found unassigned)
      (attachOrphan_free functions driver notLater free)

theorem Stubbed.decorate {functions : FunctionSet} {driver : FunctionId}
    {before after later : Listing} (stubbed : Stubbed functions driver before after)
    (decorates : after.Decorates later) : Stubbed functions driver before later := by
  refine ⟨decorates.consistent, stubbed.retains.trans decorates.retains, ?_⟩
  intro file number fresh
  rw [← decorates.alike.content, ← decorates.alike.path?_eq]
  exact stubbed.stubs file number fresh

theorem finish_decorates (functions : FunctionSet) (driver : FunctionId)
    (consistent : listing.Consistent) :
    listing.Decorates (finish functions driver listing) := by
  refine Decorates.of_outline consistent (finish_outline functions driver listing).symm ?_ ?_
  · rw [finish, shortenPaths_files fun _ _ => rfl]
    rfl
  · simp [finish, shortenPaths, assignFunctions, Function.comp_def]

end Orphans

section Build

variable (settings : Settings) (files : FileSystem) (index : EntryIndex) (symbols : List Symbol)
  (functions : FunctionSet) (driver : FunctionId) {found : List Opcode}
  (ascending : found.Pairwise fun a b => a.address < b.address)
include ascending

theorem ofRows_consistent : (ofRows settings index symbols driver found).Consistent :=
  (ofRows_continues settings index symbols driver ascending).consistent
    (ofOpcodes_consistent found ascending)

theorem withTexts_decorates : (ofRows settings index symbols driver found).Decorates
    (withTexts settings files driver (ofRows settings index symbols driver found)) := by
  have consistent := ofRows_consistent settings index symbols driver ascending
  unfold withTexts
  split
  next => exact loadTexts_decorates files settings.searchPaths driver consistent
  next => exact Decorates.refl consistent

theorem build_stubbed : Stubbed functions driver (ofRows settings index symbols driver found)
    (build settings files index symbols functions driver found) := by
  have texts := withTexts_decorates settings files index symbols driver ascending
  have start : Stubbed functions driver (ofRows settings index symbols driver found)
      (withTexts settings files driver (ofRows settings index symbols driver found)) :=
    ⟨texts.consistent, texts.retains, fun file number fresh =>
      .inl ((texts.alike.content file number).symm.trans fresh)⟩
  have orphans := start.orphans (List.nodup_range.filter _) fun index =>
    (mem_orphans_iff _ index).1
  rw [build_eq_finish]
  exact orphans.decorate (finish_decorates functions driver orphans.consistent)

theorem build_alike (others : FileSystem) :
    (build settings files index symbols functions driver found).Alike
      (build settings others index symbols functions driver found) := by
  have texts (files : FileSystem) :=
    withTexts_decorates settings files index symbols driver ascending
  have finish (files : FileSystem) := finish_decorates functions driver
    ((attachOrphans_assigns functions driver (texts files).consistent).1.consistent
      (texts files).consistent)
  have orphans := attachOrphans_alike functions driver
    ((texts files).alike.symm.trans (texts others).alike) (texts files).consistent
      (texts others).consistent ((texts files).instructions.trans (texts others).instructions.symm)
  rw [build_eq_finish, build_eq_finish]
  exact (finish files).alike.symm.trans (orphans.trans (finish others).alike)

end Build

end SourceScope.Listing
