import SourceScope.Proofs.Listing.Sound

set_option autoImplicit false

namespace SourceScope.Listing

def path? (listing : Listing) (file : FileId) : Option String :=
  (listing.files[file]?).map (·.path)

structure Retains (a b : Listing) : Prop where
  paths : ∀ (file : FileId) (path : String), a.path? file = some path → b.path? file = some path
  lines : ∀ (file : FileId) (number : UInt32) (id : LineId), a.numbered? file number = some id →
    b.numbered? file number = some id

theorem Retains.refl (listing : Listing) : listing.Retains listing :=
  ⟨fun _ _ found => found, fun _ _ _ found => found⟩

theorem Retains.trans {a b c : Listing} (first : a.Retains b) (second : b.Retains c) :
    a.Retains c where
  paths file path found := second.paths file path (first.paths file path found)
  lines file number id found := second.lines file number id (first.lines file number id found)

theorem path?_of_outline {a b : Listing} (same : a.outline = b.outline) (file : FileId) :
    a.path? file = b.path? file := by
  have view (listing : Listing) :
      listing.path? file = (listing.outline.files[file]?).map (·.1) := by
    simp [path?, outline, Function.comp_def]
  rw [view a, view b, same]

theorem Retains.of_outline {a b : Listing} (same : a.outline = b.outline) : a.Retains b where
  paths file path found := by rwa [← path?_of_outline same]
  lines file number id found := by rwa [← numbered?_of_outline same]

theorem fileId_numbered? (listing : Listing) (path : String) (file : FileId) (number : UInt32) :
    (listing.fileId path).2.numbered? file number = listing.numbered? file number := by
  unfold fileId
  split
  next => rfl
  next => exact pushFile_numbered? listing rfl file number

theorem fileId_retains (listing : Listing) (path : String) :
    listing.Retains (listing.fileId path).2 where
  paths file known found := by
    unfold fileId
    split
    next => exact found
    next =>
      obtain ⟨f, atFile, rfl⟩ := Option.map_eq_some_iff.1 found
      have bound := (Array.getElem?_eq_some_iff.1 atFile).1
      simp [path?, Array.getElem?_push, Nat.ne_of_lt bound, atFile]
  lines file number id found := by rwa [fileId_numbered?]

theorem lineId_path? (listing : Listing) (file : FileId) (number : UInt32) (function : FunctionId)
    (other : FileId) :
    (listing.lineId file number function).2.path? other = listing.path? other := by
  unfold lineId
  split
  next => rfl
  next =>
    simp only [path?, Array.getElem?_modify]
    split <;> simp [Function.comp_def]

theorem lineId_retains (listing : Listing) (file : FileId) (number : UInt32)
    (function : FunctionId) (known : file < listing.files.size) :
    listing.Retains (listing.lineId file number function).2 where
  paths other path found := by rwa [lineId_path?]
  lines other wanted id found := by
    unfold lineId
    split
    next => exact found
    next free =>
      rw [pushLine_numbered? listing file number _ known free, if_neg, found]
      rintro ⟨rfl, rfl⟩
      rw [numbered?, free] at found
      cases found

theorem lineId_numbered? (listing : Listing) (file : FileId) (number : UInt32)
    (function : FunctionId) (known : file < listing.files.size) :
    (listing.lineId file number function).2.numbered? file number =
      some (listing.lineId file number function).1 := by
  unfold lineId
  split
  next id found => exact found
  next free => rw [pushLine_numbered? listing file number _ known free, if_pos ⟨rfl, rfl⟩]

def contentAt (listing : Listing) (file : FileId) (number : UInt32) : List UInt32 × Bool :=
  (((listing.numbered? file number).bind fun id => listing.lines[id]?).map fun line =>
    (line.instructions, line.isStub)).getD ([], false)

theorem contentAt_of_free {listing : Listing} {file : FileId} {number : UInt32}
    (free : listing.numbered? file number = none) :
    listing.contentAt file number = ([], false) := by
  simp [contentAt, free]

theorem contentAt_of_numbered? {listing : Listing} {file : FileId} {number : UInt32} {id : LineId}
    {line : SourceLine} (numbered : listing.numbered? file number = some id)
    (found : listing.lines[id]? = some line) :
    listing.contentAt file number = (line.instructions, line.isStub) := by
  simp [contentAt, numbered, found]

theorem Consistent.contentAt {listing : Listing} (consistent : listing.Consistent) {id : LineId}
    {line : SourceLine} (found : listing.lines[id]? = some line) :
    listing.contentAt line.file line.number = (line.instructions, line.isStub) :=
  contentAt_of_numbered? ((consistent.numbered _ _ id).2 ⟨line, found, rfl, rfl⟩) found

theorem contentAt_congr {a b : Listing} {file : FileId} {number : UInt32}
    (numbered : a.numbered? file number = b.numbered? file number)
    (lines : a.lines.map (fun l => (l.instructions, l.isStub)) =
      b.lines.map fun l => (l.instructions, l.isStub)) :
    a.contentAt file number = b.contentAt file number := by
  have view (listing : Listing) : listing.contentAt file number =
      ((listing.numbered? file number).bind fun id =>
        (listing.lines.map fun l => (l.instructions, l.isStub))[id]?).getD ([], false) := by
    cases found : listing.numbered? file number <;> simp [contentAt, found]
  rw [view a, view b, numbered, lines]

theorem lineId_contentAt {listing : Listing} (consistent : listing.Consistent) {file : FileId}
    (known : file < listing.files.size) (number : UInt32) (function : FunctionId) (other : FileId)
    (wanted : UInt32) : (listing.lineId file number function).2.contentAt other wanted =
      listing.contentAt other wanted := by
  unfold lineId
  split
  next => rfl
  next free =>
    have numbered := pushLine_numbered? listing file number
      ⟨file, number, "", [], function, false, .zero⟩ known free other wanted
    by_cases here : other = file ∧ wanted = number
    · obtain ⟨rfl, rfl⟩ := here
      rw [contentAt_of_free free, contentAt, numbered, if_pos ⟨rfl, rfl⟩]
      simp
    · rw [if_neg here] at numbered
      cases found : listing.numbered? other wanted with
      | none => rw [contentAt_of_free found, contentAt_of_free (numbered.trans found)]
      | some id =>
        obtain ⟨line, atId, -⟩ := (consistent.numbered other wanted id).1 found
        have bound := (Array.getElem?_eq_some_iff.1 atId).1
        rw [contentAt_of_numbered? found atId]
        refine contentAt_of_numbered? (numbered.trans found) ?_
        simpa [Array.getElem?_push, Nat.ne_of_lt bound] using atId

/-- Listings that have the same code at the same places, though their lines may be numbered
otherwise. -/
structure Alike (a b : Listing) : Prop where
  code : a.code = b.code
  paths : a.files.map (·.path) = b.files.map (·.path)
  synthetic : a.files.map (·.isSynthetic) = b.files.map (·.isSynthetic)
  content : ∀ (file : FileId) (number : UInt32),
    a.contentAt file number = b.contentAt file number

theorem Alike.refl (listing : Listing) : listing.Alike listing :=
  ⟨rfl, rfl, rfl, fun _ _ => rfl⟩

theorem Alike.symm {a b : Listing} (alike : a.Alike b) : b.Alike a :=
  ⟨alike.code.symm, alike.paths.symm, alike.synthetic.symm,
    fun file number => (alike.content file number).symm⟩

theorem Alike.trans {a b c : Listing} (first : a.Alike b) (second : b.Alike c) : a.Alike c :=
  ⟨first.code.trans second.code, first.paths.trans second.paths,
    first.synthetic.trans second.synthetic,
    fun file number => (first.content file number).trans (second.content file number)⟩

theorem Alike.of_outline {a b : Listing} (same : a.outline = b.outline)
    (synthetic : a.files.map (·.isSynthetic) = b.files.map (·.isSynthetic))
    (stubs : a.lines.map (·.isStub) = b.lines.map (·.isStub)) : a.Alike b := by
  refine ⟨?_, ?_, synthetic, fun file number => ?_⟩
  · rw [Listing.code, Listing.code, instructions_of_outline same]
  · have paths := congrArg (fun outline => outline.files.map (·.1)) same
    simpa only [outline, Array.map_map, Function.comp_def] using paths
  · refine contentAt_congr (numbered?_of_outline same file number) (Array.ext_getElem? fun id => ?_)
    have lists := congrArg (fun outline => (outline.lines[id]?).map (·.2.2)) same
    have marks := congrArg (·[id]?) stubs
    simp only [outline, Array.getElem?_map, Option.map_map, Function.comp_def] at lists marks ⊢
    cases first : a.lines[id]? <;> cases second : b.lines[id]? <;> simp_all

theorem Alike.path?_eq {a b : Listing} (alike : a.Alike b) (file : FileId) :
    a.path? file = b.path? file := by
  have paths := congrArg (fun paths => paths[file]?) alike.paths
  simpa only [path?, Array.getElem?_map] using paths

structure Decorates (a b : Listing) : Prop where
  instructions : b.instructions = a.instructions
  alike : a.Alike b
  retains : a.Retains b
  consistent : b.Consistent

theorem Decorates.refl {listing : Listing} (consistent : listing.Consistent) :
    listing.Decorates listing :=
  ⟨rfl, Alike.refl listing, Retains.refl listing, consistent⟩

theorem Decorates.trans {a b c : Listing} (first : a.Decorates b) (second : b.Decorates c) :
    a.Decorates c :=
  ⟨second.instructions.trans first.instructions, first.alike.trans second.alike,
    first.retains.trans second.retains, second.consistent⟩

theorem Decorates.of_outline {a b : Listing} (consistent : a.Consistent)
    (same : a.outline = b.outline)
    (synthetic : a.files.map (·.isSynthetic) = b.files.map (·.isSynthetic))
    (stubs : a.lines.map (·.isStub) = b.lines.map (·.isStub)) : a.Decorates b :=
  ⟨(instructions_of_outline same).symm, Alike.of_outline same synthetic stubs,
    Retains.of_outline same, consistent.of_outline same⟩

theorem lineId_decorates {listing : Listing} (consistent : listing.Consistent) {file : FileId}
    (known : file < listing.files.size) (number : UInt32) (function : FunctionId) :
    listing.Decorates (listing.lineId file number function).2 := by
  have continues := lineId_continues listing file number function known
  refine ⟨lineId_instructions listing file number function,
    ⟨continues.code.symm, ?_, ?_, fun other wanted =>
      (lineId_contentAt consistent known number function other wanted).symm⟩,
    lineId_retains listing file number function known, continues.consistent consistent⟩
  all_goals
    unfold lineId
    split
    next => rfl
    next => simp [map_modify]

theorem setTexts_decorates (driver : FunctionId) (file : FileId) (number : Nat)
    (texts : List String) {listing : Listing} (consistent : listing.Consistent)
    (known : file < listing.files.size) :
    listing.Decorates (setTexts driver file number texts listing) := by
  induction texts generalizing number listing with
  | nil => exact Decorates.refl consistent
  | cons text rest ih =>
    have line := lineId_decorates consistent known (UInt32.ofNat number) driver
    have same := outline_modifyLine (listing.lineId file (UInt32.ofNat number) driver).2
      (listing.lineId file (UInt32.ofNat number) driver).1 (fun l => { l with text })
      (fun _ => ⟨rfl, rfl, rfl⟩)
    have named := Decorates.of_outline line.consistent same.symm rfl (by simp [map_modify])
    refine (line.trans named).trans (ih (number + 1) named.consistent ?_)
    rwa [lineId_files_size]

theorem loadFile_decorates (files : FileSystem) (searchPaths : List String) (driver : FunctionId)
    {listing : Listing} (consistent : listing.Consistent) (file : FileId) :
    listing.Decorates (loadFile files searchPaths driver listing file) := by
  unfold loadFile
  split
  next => exact Decorates.refl consistent
  next text found =>
    obtain ⟨_, atFile, -⟩ := Option.bind_eq_some_iff.1 found
    have known := (Array.getElem?_eq_some_iff.1 atFile).1
    have texts := setTexts_decorates driver file 1 (textLines text) consistent known
    have same := outline_modifyFile (setTexts driver file 1 (textLines text) listing) file
      (fun f => { f with isLoaded := true }) (fun _ => ⟨rfl, rfl⟩)
    exact texts.trans (Decorates.of_outline texts.consistent same.symm (by simp [map_modify]) rfl)

theorem loadTexts_decorates (files : FileSystem) (searchPaths : List String) (driver : FunctionId)
    {listing : Listing} (consistent : listing.Consistent) :
    listing.Decorates (loadTexts files searchPaths driver listing) :=
  List.foldlRecOn _ _ (Decorates.refl consistent) fun _ decorates file _ =>
    decorates.trans (loadFile_decorates files searchPaths driver decorates.consistent file)

end SourceScope.Listing
