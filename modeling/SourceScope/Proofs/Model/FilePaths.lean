import Mathlib
import SourceScope.Proofs.Listing.Sound
import SourceScope.Proofs.Model.Build
import SourceScope.Proofs.Path.Shortened

set_option autoImplicit false

namespace SourceScope.Listing

def Unshortened (listing : Listing) : Prop := ∀ file ∈ listing.files, file.shortPath = file.path

theorem assignTo_files (line : LineId) (stop : UInt32) (count index : Nat) (listing : Listing) :
    (assignTo line stop count index listing).files = listing.files := by
  fun_induction assignTo line stop count index listing with
  | case1 => rfl
  | case2 => rfl
  | case3 => rfl
  | case4 _ _ _ _ _ _ _ _ ih => exact ih
  | case5 _ _ _ _ _ _ _ _ ih => exact ih

namespace Unshortened

variable {listing : Listing}

theorem modify (unshortened : listing.Unshortened) {lines : Array SourceLine}
    {instructions : Array Instruction} (id : FileId) {f : SourceFile → SourceFile}
    (keeps : ∀ file, (f file).path = file.path ∧ (f file).shortPath = file.shortPath) :
    Unshortened ⟨listing.files.modify id f, lines, instructions⟩ := by
  intro file member
  obtain ⟨index, found⟩ := Array.mem_iff_getElem?.1 member
  rw [Array.getElem?_modify] at found
  split at found
  next =>
    obtain ⟨old, atIndex, rfl⟩ := Option.map_eq_some_iff.1 found
    rw [(keeps old).1, (keeps old).2, unshortened old (Array.mem_of_getElem? atIndex)]
  next => exact unshortened file (Array.mem_of_getElem? found)

theorem fileId (unshortened : listing.Unshortened) (path : String) :
    (listing.fileId path).2.Unshortened := by
  unfold Listing.fileId
  split
  next => exact unshortened
  next =>
    intro file member
    rcases Array.mem_push.1 member with old | rfl
    · exact unshortened file old
    · rfl

theorem lineId (unshortened : listing.Unshortened) (file : FileId) (number : UInt32)
    (function : FunctionId) : (listing.lineId file number function).2.Unshortened := by
  unfold Listing.lineId
  split
  next => exact unshortened
  next => exact unshortened.modify file fun _ => ⟨rfl, rfl⟩

theorem attach (unshortened : listing.Unshortened) (driver : FunctionId) (extent : LineExtent) :
    (attach driver listing extent).Unshortened := by
  have lined := (unshortened.fileId extent.file).lineId (listing.fileId extent.file).1 extent.line
    driver
  simp only [Listing.attach]
  rwa [Unshortened, assignTo_files]

theorem setTexts {driver : FunctionId} {file : FileId} {number : Nat} {texts : List String}
    (unshortened : listing.Unshortened) :
    (setTexts driver file number texts listing).Unshortened := by
  induction texts generalizing number listing with
  | nil => exact unshortened
  | cons text rest ih => exact ih (unshortened.lineId file (UInt32.ofNat number) driver)

theorem loadFile (unshortened : listing.Unshortened) (files : FileSystem)
    (searchPaths : List String) (driver : FunctionId) (file : FileId) :
    (loadFile files searchPaths driver listing file).Unshortened := by
  unfold Listing.loadFile
  split
  next => exact unshortened
  next => exact unshortened.setTexts.modify file fun _ => ⟨rfl, rfl⟩

theorem attachOrphan (unshortened : listing.Unshortened) (functions : FunctionSet)
    (driver : FunctionId) (index : Nat) :
    (attachOrphan functions driver listing index).Unshortened := by
  unfold Listing.attachOrphan
  split
  next => exact unshortened
  next instruction _ =>
    dsimp only
    generalize ((functions.get? ((functions.smallestEnclosing? instruction.opcode.address).getD
      driver)).map (·.name)).getD "" = name
    have file : (listing.stubFile name).2.Unshortened :=
      (unshortened.fileId name).modify _ fun _ => ⟨rfl, rfl⟩
    exact file.lineId (listing.stubFile name).1 1 _

end Unshortened

def realPaths (listing : Listing) : List String :=
  (listing.files.toList.filter (!·.isSynthetic)).map (·.path)

def sharedFront (listing : Listing) (file : SourceFile) : String :=
  if file.isSynthetic then "" else String.ofList (Path.sharedText listing.realPaths)

theorem withShortPaths_filter (shorten : String → String) (files : List SourceFile) :
    withShortPaths files (((files.filter (!·.isSynthetic)).map (·.path)).map shorten) =
      files.map fun file =>
        if file.isSynthetic then file else { file with shortPath := shorten file.path } := by
  induction files with
  | nil => rfl
  | cons file rest ih =>
    cases synthetic : file.isSynthetic <;> simp [withShortPaths, synthetic, ← ih]

theorem shortenPaths_realPaths (listing : Listing) :
    listing.shortenPaths.realPaths = listing.realPaths := by
  let read (file : SourceFile) : Bool × String := (file.isSynthetic, file.path)
  have same : listing.shortenPaths.files.map read = listing.files.map read :=
    listing.shortenPaths_files fun _ _ => rfl
  have paths (other : Listing) : other.realPaths =
      ((other.files.map read).toList.filter (!·.1)).map (·.2) := by
    simp [realPaths, List.filter_map, Function.comp_def, read]
  rw [paths, paths, same]

theorem mem_realPaths {listing : Listing} {file : SourceFile} (member : file ∈ listing.files)
    (real : file.isSynthetic = false) : file.path ∈ listing.realPaths :=
  List.mem_map_of_mem (List.mem_filter.2 ⟨Array.mem_toList_iff.2 member, by simp [real]⟩)

theorem Unshortened.shortenPaths {listing : Listing} (unshortened : listing.Unshortened) :
    ∀ file ∈ listing.shortenPaths.files,
      listing.shortenPaths.sharedFront file ++ file.shortPath = file.path := by
  intro file member
  simp only [Listing.shortenPaths, List.mem_toArray, Path.shorten, withShortPaths_filter,
    List.mem_map, Array.mem_toList_iff] at member
  obtain ⟨old, known, rfl⟩ := member
  rw [sharedFront, shortenPaths_realPaths]
  cases synthetic : old.isSynthetic with
  | true => simp [synthetic, unshortened old known]
  | false =>
    simpa [synthetic, realPaths] using Path.ofList_append_drop (mem_realPaths known synthetic)

theorem build_shortPath (settings : Settings) (files : FileSystem) (index : EntryIndex)
    (symbols : List Symbol) (functions : FunctionSet) (driver : FunctionId) (found : List Opcode) :
    ∀ file ∈ (build settings files index symbols functions driver found).files,
      (build settings files index symbols functions driver found).sharedFront file ++
        file.shortPath = file.path := by
  have start : (ofOpcodes found).Unshortened := by simp [Unshortened, ofOpcodes]
  have attached : (ofRows settings index symbols driver found).Unshortened :=
    List.foldlRecOn _ _ start fun _ kept extent _ => kept.attach driver extent
  have loaded : (withTexts settings files driver
      (ofRows settings index symbols driver found)).Unshortened := by
    unfold withTexts
    split
    · exact List.foldlRecOn _ _ attached fun _ kept file _ =>
        kept.loadFile files settings.searchPaths driver file
    · exact attached
  have orphaned : (attachOrphans functions driver
      (withTexts settings files driver (ofRows settings index symbols driver found))).Unshortened :=
    List.foldlRecOn _ _ loaded fun _ kept index _ => kept.attachOrphan functions driver index
  have owned : (assignFunctions functions driver (attachOrphans functions driver
      (withTexts settings files driver
        (ofRows settings index symbols driver found)))).Unshortened := orphaned
  exact owned.shortenPaths

end SourceScope.Listing

namespace SourceScope.SourceModel

variable {settings : Settings} {files : FileSystem} {disassemble : Disassembler} {binary : Binary}
  {model : SourceModel}

theorem fileByPath?_eq_some_iff (model : SourceModel) (path : String) (id : FileId) :
    model.fileByPath? path = some id ↔
      (∃ file, model.file? id = some file ∧ (file.path = path ∨ file.shortPath = path)) ∧
      ∀ other < id, ∀ earlier, model.file? other = some earlier →
        earlier.path ≠ path ∧ earlier.shortPath ≠ path := by
  simp only [fileByPath?, file?, Array.findIdx?_eq_some_iff_getElem, Bool.or_eq_true, beq_iff_eq]
  constructor
  · rintro ⟨bound, named, first⟩
    refine ⟨⟨_, Array.getElem?_eq_getElem bound, named⟩, fun other less earlier found => ?_⟩
    obtain ⟨_, rfl⟩ := Array.getElem?_eq_some_iff.1 found
    exact not_or.1 (first other less)
  · rintro ⟨⟨file, found, named⟩, first⟩
    obtain ⟨bound, rfl⟩ := Array.getElem?_eq_some_iff.1 found
    refine ⟨bound, named, fun other less => not_or.2 ?_⟩
    exact first other less _ (Array.getElem?_eq_getElem (Nat.lt_trans less bound))

theorem build_shortPath (built : build settings files disassemble binary = .ok model) :
    ∀ file ∈ model.listing.files,
      model.listing.sharedFront file ++ file.shortPath = file.path := by
  obtain ⟨index, frame, rfl⟩ := build_eq_ofIndex built
  exact Listing.build_shortPath settings files index binary.functionSymbols _ _ _

theorem shortPath_eq_iff {file : SourceFile} {front path : String}
    (shortened : front ++ file.shortPath = file.path) :
    file.shortPath = path ↔ file.path = front ++ path := by
  rw [← shortened, ← String.toList_inj, ← String.toList_inj]
  simp

/-- A file is found by its full path exactly if none of the earlier files that line tables name has
that path behind what all of them share. Otherwise an earlier file is taken for it. -/
theorem fileByPath?_path_iff (built : build settings files disassemble binary = .ok model) :
    ∃ front, (model.listing.realPaths ≠ [] →
        Path.LongestFront model.listing.realPaths front) ∧
      ∀ (id : FileId) (file : SourceFile), model.file? id = some file →
        (model.fileByPath? file.path = some id ↔
          ∀ other < id, ∀ earlier, model.file? other = some earlier →
            earlier.isSynthetic = false → earlier.path ≠ front ++ file.path) ∧
        ∃ first ≤ id, model.fileByPath? file.path = some first := by
  have sound := (build_finished built).sound
  refine ⟨String.ofList (Path.sharedText model.listing.realPaths), Path.shared_longest, ?_⟩
  intro id file found
  have apart : ∀ other < id, ∀ earlier, model.file? other = some earlier →
      earlier.path ≠ file.path := by
    intro other less earlier atOther same
    exact absurd (sound.paths other id earlier file atOther found same) (Nat.ne_of_lt less)
  constructor
  · rw [fileByPath?_eq_some_iff]
    constructor
    · rintro ⟨-, first⟩ other less earlier atOther real
      have shortened := build_shortPath built earlier (Array.mem_of_getElem? atOther)
      rw [Listing.sharedFront, real] at shortened
      exact mt (shortPath_eq_iff shortened).2 (first other less earlier atOther).2
    · intro unshared
      refine ⟨⟨file, found, .inl rfl⟩, fun other less earlier atOther => ?_⟩
      have different := apart other less earlier atOther
      have shortened := build_shortPath built earlier (Array.mem_of_getElem? atOther)
      refine ⟨different, mt (shortPath_eq_iff shortened).1 ?_⟩
      rw [Listing.sharedFront]
      cases real : earlier.isSynthetic with
      | true => simpa using different
      | false => exact unshared other less earlier atOther real
  · have some : (model.fileByPath? file.path).isSome := by
      rw [fileByPath?, Array.findIdx?_isSome, Array.any_eq_true']
      exact ⟨file, Array.mem_of_getElem? found, by simp⟩
    obtain ⟨first, atPath⟩ := Option.isSome_iff_exists.1 some
    refine ⟨first, ?_, atPath⟩
    by_contra later
    exact (((fileByPath?_eq_some_iff model _ first).1 atPath).2 id (Nat.lt_of_not_le later) file
      found).1 rfl

open Sample in
def mirrored : Binary :=
  -- a row for each file
  withLines [] ["a/a/m.c", "a/m.c"] (sequence 0x100 [3, 4, 1, 2, 2, 4, 2, 1])

set_option maxRecDepth 20000 in
theorem mirrored_files :
    (build .default noFiles Opcode.sweep mirrored).toOption.map (fun model =>
      (model.listing.files.toList.map fun file => (file.path, file.isSynthetic),
        model.fileByPath? "a/m.c")) =
      some ([("a/a/m.c", false), ("a/m.c", false)], some 0) := by
  cbv

theorem exists_mirrored :
    ∃ model a b, build .default noFiles Opcode.sweep mirrored = .ok model ∧
      model.listing.files.toList = [a, b] ∧ a.path = "a/a/m.c" ∧ a.isSynthetic = false ∧
      b.path = "a/m.c" ∧ b.isSynthetic = false ∧ model.fileByPath? "a/m.c" = some 0 := by
  obtain ⟨model, built, same⟩ := exists_ok mirrored_files
  obtain ⟨files, found⟩ := Prod.mk.inj same
  obtain ⟨a, rest, split, first, files⟩ := List.map_eq_cons_iff.1 files
  obtain ⟨b, none, rfl, second, files⟩ := List.map_eq_cons_iff.1 files
  obtain rfl := List.map_eq_nil_iff.1 files
  obtain ⟨aPath, aReal⟩ := Prod.mk.inj first
  obtain ⟨bPath, bReal⟩ := Prod.mk.inj second
  exact ⟨model, a, b, built, split, aPath, aReal, bPath, bReal, found⟩

theorem fileByPath?_path_iff_mirrored :
    ∃ model, build .default noFiles Opcode.sweep mirrored = .ok model ∧
      Path.LongestFront ["a/a/m.c", "a/m.c"] "a/" ∧ model.fileByPath? "a/a/m.c" = some 0 := by
  obtain ⟨model, a, b, built, listed, aPath, aReal, bPath, bReal, found⟩ := exists_mirrored
  obtain ⟨front, longest, named⟩ := fileByPath?_path_iff built
  have paths : model.listing.realPaths = ["a/a/m.c", "a/m.c"] := by
    simp [Listing.realPaths, listed, aReal, bReal, aPath, bPath]
  have first : model.file? 0 = some a := by simp [file?, ← Array.getElem?_toList, listed]
  have second : model.file? 1 = some b := by simp [file?, ← Array.getElem?_toList, listed]
  -- the second file is not found, so the first one has its path behind the front
  have mistaken := (named 1 b second).1
  rw [bPath, found] at mistaken
  obtain rfl : front = "a/" := by
    by_contra different
    refine absurd (mistaken.2 fun other less earlier atOther real same => different ?_) (by simp)
    obtain rfl : other = 0 := Nat.lt_one_iff.1 less
    obtain rfl := Option.some.inj (first.symm.trans atOther)
    rw [aPath, ← String.toList_inj, String.toList_append] at same
    exact String.toList_inj.1 (List.append_cancel_right same.symm)
  refine ⟨model, built, paths ▸ longest (by simp [paths]), ?_⟩
  exact aPath ▸ (named 0 a first).1.2 fun other less => absurd less (Nat.not_lt_zero other)

/-- The second file is not found by its full path, which is the short path of the first. -/
theorem mirrored_mistaken :
    ∃ model file, build .default noFiles Opcode.sweep mirrored = .ok model ∧
      model.file? 1 = some file ∧ file.path = "a/m.c" ∧ model.fileByPath? file.path ≠ some 1 := by
  obtain ⟨model, a, b, built, listed, -, -, path, -, found⟩ := exists_mirrored
  refine ⟨model, b, built, by simp [file?, ← Array.getElem?_toList, listed], path, ?_⟩
  rw [path, found]
  decide

end SourceScope.SourceModel
