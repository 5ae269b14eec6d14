import Mathlib
import SourceScope.Proofs.Listing.Rows
import SourceScope.Proofs.Model.Build

set_option autoImplicit false

namespace SourceScope.SourceModel

variable {settings : Settings} {files : FileSystem} {disassemble : Disassembler} {binary : Binary}
  {model : SourceModel} {index : EntryIndex}

theorem build_eq_ofLoaded (built : build settings files disassemble binary = .ok model)
    (loaded : EntryIndex.load binary.debugSections = .ok index) :
    ∃ frame, model = ofIndex settings files disassemble binary index frame := by
  unfold build at built
  split at built
  · cases built
  · obtain ⟨found, indexed, built⟩ := bind_eq_ok.1 built
    obtain ⟨frame, -, built⟩ := bind_eq_ok.1 built
    simp only [inContext, loaded, Except.mapError, Except.ok.injEq] at indexed
    subst indexed
    exact ⟨frame, (Except.ok.inj built).symm⟩

theorem build_code (built : build settings files disassemble binary = .ok model) :
    model.listing.code = Listing.opcodes disassemble binary.code := by
  obtain ⟨index, frame, rfl⟩ := build_eq_ofIndex built
  simp only [ofIndex]
  exact (Listing.build_sound settings files index binary.functionSymbols _ _ _
    (Listing.opcodes_ascending disassemble binary.code) (FunctionSet.withDriver_lt _ _ _)).1

theorem lineAt?_of_place {address : UInt32} {n : Nat} {line : LineId} {place : String × UInt32}
    (atAddress : model.listing.instructionIndex? address = some n)
    (atLine : model.listing.lineOfIndex? n = some line)
    (atPlace : model.listing.placeOf? line = some place) :
    ∃ line file, model.lineAt? address = some line ∧ model.file? line.file = some file ∧
      file.path = place.1 ∧ line.number = place.2 := by
  obtain ⟨found, file, atId, atFile, path, number⟩ :=
    (Listing.placeOf?_eq_some_iff model.listing line place).1 atPlace
  refine ⟨found, file, ?_, atFile, path, number⟩
  simp only [Listing.lineOfIndex?] at atLine
  simp [lineAt?, Listing.lineAt?, Listing.lineIdAt?, Listing.instructionAt?, atAddress, atLine, atId]

/-- An instruction that some row covers has the line of the first row that claims its address. That
one covers it too, unless it is padded. -/
theorem lineAt?_covered (built : build settings files disassemble binary = .ok model)
    (loaded : EntryIndex.load binary.debugSections = .ok index) {address : UInt32} {i : Instruction}
    (found : model.instructionAt? address = some i) {row next : LineRow}
    (member : (row, some next) ∈ Listing.tableRows index)
    (covers : row.Covers binary.functionSymbols next i.opcode.address) :
    ∃ before q after rest line file,
      Listing.tableRows index = before ++ (q, after) :: rest ∧
      (∀ earlier ∈ before, ¬ earlier.1.Claims binary.functionSymbols settings.minLineBytes earlier.2
        i.opcode.address) ∧
      ((∃ stop, after = some stop ∧ q.Covers binary.functionSymbols stop i.opcode.address) ∨
        q.Padded binary.functionSymbols settings.minLineBytes after i.opcode.address) ∧
      model.lineAt? address = some line ∧ model.file? line.file = some file ∧
      file.path = q.file ∧ line.number = q.line := by
  obtain ⟨n, atAddress, atIndex⟩ := Option.bind_eq_some_iff.1 found
  have code : (Listing.opcodes disassemble binary.code)[n]? = some i.opcode := by
    rw [← build_code built, Listing.getElem?_code, atIndex]
    rfl
  obtain ⟨before, q, after, rest, extent, split, earlier, claims, file, line, first⟩ :=
    LineExtent.find?_holds binary.functionSymbols settings.minLineBytes row (some next)
      i.opcode.address member (Or.inl ⟨next, rfl, covers⟩)
  obtain ⟨frame, rfl⟩ := build_eq_ofLoaded built loaded
  obtain ⟨id, atLine, place⟩ := Listing.build_place settings files index binary.functionSymbols _ _
    (Listing.opcodes_ascending disassemble binary.code) code first
  obtain ⟨found, f, atLine, atFile, path, number⟩ := lineAt?_of_place atAddress atLine place
  exact ⟨before, q, after, rest, found, f, split, earlier, claims, atLine, atFile,
    path.trans file, number.trans line⟩

open Sample in
def touching : Binary :=
  withLines [] ["m.c"] (sequence 0x100 [3, 4, 1] ++ sequence 0x102 [3, 8, 1])

-- Each row with the one after it; the padding of the first reaches as far as the third.
def touchingRows : List (LineRow × Option LineRow) := [
  (⟨0x100, "m.c", 5, false⟩, some ⟨0x102, "m.c", 5, true⟩),
  (⟨0x102, "m.c", 5, true⟩, some ⟨0x102, "m.c", 9, false⟩),
  (⟨0x102, "m.c", 9, false⟩, some ⟨0x104, "m.c", 9, true⟩),
  (⟨0x104, "m.c", 9, true⟩, none)]

set_option maxRecDepth 20000 in
theorem touching_rows :
    (EntryIndex.load touching.debugSections).toOption.map Listing.tableRows =
      some touchingRows := by
  cbv

set_option maxRecDepth 20000 in
theorem touching_lines :
    (build .default noFiles Opcode.sweep touching).toOption.map (fun model =>
      ((model.instructionAt? 0x102).map (·.opcode.address), (model.lineAt? 0x102).map (·.number))) =
        some (some 0x102, some 5) := by
  cbv

theorem touching_covered :
    LineRow.Covers ⟨0x102, "m.c", 9, false⟩ touching.functionSymbols ⟨0x104, "m.c", 9, true⟩
      0x102 := by
  refine ⟨⟨rfl, by decide, by decide⟩, by decide, ?_⟩
  intro _ s member
  cases member

theorem lineAt?_covered_touching :
    ∃ model index i before q after rest line file,
      build .default noFiles Opcode.sweep touching = .ok model ∧
      EntryIndex.load touching.debugSections = .ok index ∧ model.instructionAt? 0x102 = some i ∧
      Listing.tableRows index = before ++ (q, after) :: rest ∧
      (∀ earlier ∈ before, ¬ earlier.1.Claims touching.functionSymbols
        Settings.default.minLineBytes earlier.2 i.opcode.address) ∧
      ((∃ stop, after = some stop ∧ q.Covers touching.functionSymbols stop i.opcode.address) ∨
        q.Padded touching.functionSymbols Settings.default.minLineBytes after i.opcode.address) ∧
      model.lineAt? 0x102 = some line ∧ model.file? line.file = some file ∧
      file.path = q.file ∧ line.number = q.line := by
  obtain ⟨model, built, lines⟩ := exists_ok touching_lines
  obtain ⟨index, loaded, rows⟩ := exists_ok touching_rows
  obtain ⟨i, found, address⟩ := Option.map_eq_some_iff.1 (Prod.mk.inj lines).1
  have covers : LineRow.Covers ⟨0x102, "m.c", 9, false⟩ touching.functionSymbols
      ⟨0x104, "m.c", 9, true⟩ i.opcode.address := by
    rw [address]
    exact touching_covered
  obtain ⟨before, q, after, rest, line, file, result⟩ := lineAt?_covered built loaded found
    (by simp [rows, touchingRows]) covers
  exact ⟨model, index, i, before, q, after, rest, line, file, built, loaded, found, result⟩

/-- The second instruction is covered by one row only, and has the line of another one. -/
theorem touching_misplaced :
    touching.functionSymbols = [] ∧ ∃ model index i,
      build .default noFiles Opcode.sweep touching = .ok model ∧
      EntryIndex.load touching.debugSections = .ok index ∧
      model.instructionAt? 0x102 = some i ∧ i.opcode.address = 0x102 ∧
      (∃ row next, (row, some next) ∈ Listing.tableRows index ∧
        row.Covers touching.functionSymbols next 0x102) ∧
      ∀ line, model.lineAt? 0x102 = some line →
        ¬ ∃ row next, (row, some next) ∈ Listing.tableRows index ∧
          row.Covers touching.functionSymbols next 0x102 ∧ line.number = row.line := by
  obtain ⟨model, built, lines⟩ := exists_ok touching_lines
  obtain ⟨index, loaded, rows⟩ := exists_ok touching_rows
  obtain ⟨i, found, address⟩ := Option.map_eq_some_iff.1 (Prod.mk.inj lines).1
  refine ⟨rfl, model, index, i, built, loaded, found, address, ?_, ?_⟩
  · exact ⟨_, _, by simp [rows, touchingRows], touching_covered⟩
  · rintro line atAddress ⟨row, next, member, covers, number⟩
    have five := (Prod.mk.inj lines).2
    rw [atAddress, Option.map_some, Option.some.injEq, number] at five
    -- the only row of line 5 ends before the address
    simp only [rows, touchingRows, List.mem_cons, Prod.mk.injEq, Option.some.injEq] at member
    rcases member with ⟨rfl, rfl⟩ | ⟨rfl, rfl⟩ | ⟨rfl, rfl⟩ | ⟨-, missing⟩ | missing
    · exact absurd covers.stop (by decide)
    · exact absurd covers.isCode (by decide)
    · exact absurd five (by decide)
    · cases missing
    · cases missing

end SourceScope.SourceModel
