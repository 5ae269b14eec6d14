import SourceScope.Proofs.Listing.Consistent

set_option autoImplicit false

namespace SourceScope.Listing

theorem lookup_insertLine (number : UInt32) (id : LineId) (lines : List (UInt32 × LineId))
    (free : lines.lookup number = none) (other : UInt32) :
    (insertLine number id lines).lookup other =
      if other = number then some id else lines.lookup other := by
  induction lines with
  | nil => by_cases same : other = number <;> simp [insertLine, same]
  | cons first rest ih =>
    obtain ⟨firstNumber, firstId⟩ := first
    have differ : number ≠ firstNumber := by
      rintro rfl
      simp at free
    have freeRest : rest.lookup number = none := by
      simpa [List.lookup_cons, beq_false_of_ne differ] using free
    by_cases less : number < firstNumber
    · by_cases same : other = number
      · simp [insertLine, less, same]
      · simp [insertLine, less, same, List.lookup_cons, beq_false_of_ne same]
    · by_cases same : other = number
      · subst same
        simp [insertLine, less, List.lookup_cons, beq_false_of_ne differ, ih freeRest]
      · by_cases atFirst : other = firstNumber <;>
          simp [insertLine, less, List.lookup_cons, atFirst, same, ih freeRest, Ne.symm differ]

theorem fileId_instructions (listing : Listing) (path : String) :
    (listing.fileId path).2.instructions = listing.instructions := by
  unfold fileId
  split <;> rfl

theorem fileId_lines (listing : Listing) (path : String) :
    (listing.fileId path).2.lines = listing.lines := by
  unfold fileId
  split <;> rfl

theorem fileId_lt (listing : Listing) (path : String) :
    (listing.fileId path).1 < (listing.fileId path).2.files.size := by
  unfold fileId
  split
  next id found => exact (Array.findIdx?_eq_some_iff_getElem.1 found).1
  next => simp

theorem fileId_path (listing : Listing) (path : String) :
    ∃ file, (listing.fileId path).2.files[(listing.fileId path).1]? = some file ∧
      file.path = path := by
  unfold fileId
  split
  next id found =>
    obtain ⟨bound, same, -⟩ := Array.findIdx?_eq_some_iff_getElem.1 found
    exact ⟨_, Array.getElem?_eq_getElem bound, by simpa using same⟩
  next => simp

theorem pushFile_numbered? (listing : Listing) {file : SourceFile} (noLines : file.lines = [])
    (id : FileId) (number : UInt32) :
    { listing with files := listing.files.push file }.numbered? id number =
      listing.numbered? id number := by
  unfold numbered?
  rw [Array.getElem?_push]
  split
  next last =>
    subst last
    simp [SourceFile.line?, noLines]
  next => rfl

theorem pushFile_consistent {listing : Listing} (consistent : listing.Consistent)
    (file : SourceFile) (noLines : file.lines = [])
    (free : ∀ (id : FileId) (other : SourceFile), listing.files[id]? = some other →
      other.path ≠ file.path) :
    { listing with files := listing.files.push file }.Consistent := by
  constructor
  case ascending => exact consistent.ascending
  case assigned => exact consistent.assigned
  case distinct => exact consistent.distinct
  case listed => exact consistent.listed
  case numbered =>
    intro id number line
    rw [pushFile_numbered? listing noLines]
    exact consistent.numbered id number line
  case paths =>
    intro f g a b atF atG path
    rw [Array.getElem?_push] at atF atG
    split at atF <;> split at atG
    next first second => exact first.trans second.symm
    next =>
      cases atF
      exact absurd path.symm (free g b atG)
    next =>
      cases atG
      exact absurd path (free f a atF)
    next => exact consistent.paths f g a b atF atG path

theorem fileId_continues (listing : Listing) (path : String) :
    listing.Continues (listing.fileId path).2 where
  code := by rw [code, code, fileId_instructions]
  files := by
    unfold fileId
    split <;> simp
  lines := Nat.le_of_eq (by rw [fileId_lines])
  assigned index h := by rwa [isAssigned, fileId_instructions]
  consistent consistent := by
    unfold fileId
    split
    next => exact consistent
    next missing =>
      refine pushFile_consistent consistent _ rfl ?_
      intro id other found same
      obtain ⟨bound, rfl⟩ := Array.getElem?_eq_some_iff.1 found
      have differs := Array.findIdx?_eq_none_iff.1 missing _ (Array.getElem_mem bound)
      simp [same] at differs

theorem lineId_instructions (listing : Listing) (file : FileId) (number : UInt32)
    (function : FunctionId) :
    (listing.lineId file number function).2.instructions = listing.instructions := by
  unfold lineId
  split <;> rfl

theorem lineId_files_size (listing : Listing) (file : FileId) (number : UInt32)
    (function : FunctionId) :
    (listing.lineId file number function).2.files.size = listing.files.size := by
  unfold lineId
  split
  next => rfl
  next => simp

theorem pushLine_numbered? (listing : Listing) (file : FileId) (number : UInt32)
    (line : SourceLine) (known : file < listing.files.size)
    (free : listing.numbered? file number = none) (other : FileId) (wanted : UInt32) :
    { listing with
      lines := listing.lines.push line
      files := listing.files.modify file fun f =>
        { f with lines := insertLine number listing.lines.size f.lines } }.numbered? other wanted =
      if other = file ∧ wanted = number then some listing.lines.size
      else listing.numbered? other wanted := by
  have atFile := Array.getElem?_eq_getElem known
  by_cases same : other = file
  · subst same
    have freeLines : (listing.files[other]).lines.lookup number = none := by
      simpa [numbered?, SourceFile.line?, atFile] using free
    simp [numbered?, SourceFile.line?, Array.getElem?_modify, atFile,
      lookup_insertLine _ _ _ freeLines]
  · simp [numbered?, Array.getElem?_modify, same, Ne.symm same]

theorem pushLine_numbered_iff {listing : Listing} (consistent : listing.Consistent) (file : FileId)
    (number : UInt32) (line : SourceLine) (known : file < listing.files.size)
    (free : listing.numbered? file number = none) (place : line.file = file ∧ line.number = number)
    (other : FileId) (wanted : UInt32) (id : LineId) :
    { listing with
      lines := listing.lines.push line
      files := listing.files.modify file fun f =>
        { f with lines := insertLine number listing.lines.size f.lines } }.numbered? other wanted =
          some id ↔
      ∃ found, (listing.lines.push line)[id]? = some found ∧ found.file = other ∧
        found.number = wanted := by
  rw [pushLine_numbered? listing file number line known free, Array.getElem?_push]
  have bound (found : listing.numbered? other wanted = some id) : id ≠ listing.lines.size := by
    obtain ⟨_, atId, -⟩ := (consistent.numbered other wanted id).1 found
    exact Nat.ne_of_lt (Array.getElem?_eq_some_iff.1 atId).1
  by_cases here : other = file ∧ wanted = number
  · obtain ⟨rfl, rfl⟩ := here
    constructor
    · intro same
      simp only [and_self, if_true, Option.some.injEq] at same
      exact ⟨line, by simp [same], place⟩
    · rintro ⟨found, atId, sameFile, sameNumber⟩
      split at atId
      next last => simp [last]
      next =>
        have old := (consistent.numbered other wanted id).2 ⟨found, atId, sameFile, sameNumber⟩
        rw [free] at old
        cases old
  · rw [if_neg here]
    constructor
    · intro found
      rw [if_neg (bound found)]
      exact (consistent.numbered other wanted id).1 found
    · rintro ⟨found, atId, sameFile, sameNumber⟩
      split at atId
      next =>
        cases atId
        exact absurd ⟨sameFile.symm.trans place.1, sameNumber.symm.trans place.2⟩ here
      next => exact (consistent.numbered other wanted id).2 ⟨found, atId, sameFile, sameNumber⟩

theorem path_of_modify {files : Array SourceFile} {file id : FileId}
    {f : SourceFile → SourceFile} {found : SourceFile}
    (atId : (files.modify file f)[id]? = some found) (keeps : ∀ file, (f file).path = file.path) :
    ∃ old, files[id]? = some old ∧ old.path = found.path := by
  rw [Array.getElem?_modify] at atId
  split at atId
  · obtain ⟨old, atOld, rfl⟩ := Option.map_eq_some_iff.1 atId
    exact ⟨old, atOld, (keeps old).symm⟩
  · exact ⟨found, atId, rfl⟩

theorem pushLine_consistent {listing : Listing} (consistent : listing.Consistent) (file : FileId)
    (number : UInt32) (line : SourceLine) (known : file < listing.files.size)
    (free : listing.numbered? file number = none) (place : line.file = file ∧ line.number = number)
    (noCode : line.instructions = []) :
    { listing with
      lines := listing.lines.push line
      files := listing.files.modify file fun f =>
        { f with lines := insertLine number listing.lines.size f.lines } }.Consistent := by
  constructor
  case ascending => exact consistent.ascending
  case assigned =>
    intro index instruction id found assigned
    have less := consistent.assigned index instruction id found assigned
    simp only [Array.size_push]
    exact Nat.lt_succ_of_lt less
  case distinct =>
    intro id other found
    rw [Array.getElem?_push] at found
    split at found
    next =>
      cases found
      simp [noCode]
    next => exact consistent.distinct id other found
  case listed =>
    intro id other address found
    rw [Array.getElem?_push] at found
    split at found
    next last =>
      cases found
      simp only [noCode, List.not_mem_nil, false_iff]
      rintro ⟨index, instruction, atIndex, -, assigned⟩
      have less := consistent.assigned index instruction id atIndex assigned
      exact absurd last (Nat.ne_of_lt less)
    next => exact consistent.listed id other address found
  case numbered => exact pushLine_numbered_iff consistent file number line known free place
  case paths =>
    intro f g a b atF atG path
    obtain ⟨oldA, atOldA, pathA⟩ := path_of_modify atF fun _ => rfl
    obtain ⟨oldB, atOldB, pathB⟩ := path_of_modify atG fun _ => rfl
    exact consistent.paths f g oldA oldB atOldA atOldB (pathA.trans (path.trans pathB.symm))

theorem lineId_continues (listing : Listing) (file : FileId) (number : UInt32)
    (function : FunctionId) (known : file < listing.files.size) :
    listing.Continues (listing.lineId file number function).2 where
  code := by rw [code, code, lineId_instructions]
  files := Nat.le_of_eq (by rw [lineId_files_size])
  lines := by
    unfold lineId
    split <;> simp
  assigned index h := by rwa [isAssigned, lineId_instructions]
  consistent consistent := by
    unfold lineId
    split
    next => exact consistent
    next missing =>
      exact pushLine_consistent consistent file number _ known missing ⟨rfl, rfl⟩ rfl

theorem lineId_lt (listing : Listing) (file : FileId) (number : UInt32) (function : FunctionId)
    (consistent : listing.Consistent) :
    (listing.lineId file number function).1 < (listing.lineId file number function).2.lines.size := by
  unfold lineId
  split
  next id found =>
    obtain ⟨_, atId, -⟩ := (consistent.numbered file number id).1 found
    exact (Array.getElem?_eq_some_iff.1 atId).1
  next => simp

def give (listing : Listing) (index : Nat) (address : UInt32) (line : LineId) : Listing :=
  { listing with
    instructions := listing.instructions.modify index fun i => { i with line := some line }
    lines := listing.lines.modify line fun l =>
      { l with instructions := l.instructions ++ [address] } }

theorem give_code (listing : Listing) (index : Nat) (address : UInt32) (line : LineId) :
    (listing.give index address line).code = listing.code := by
  apply List.ext_getElem?
  intro n
  simp only [getElem?_code, give, Array.getElem?_modify]
  split <;> simp [Function.comp_def]

theorem give_isAssigned (listing : Listing) (index : Nat) (address : UInt32) (line : LineId)
    (n : Nat) : (listing.give index address line).isAssigned n =
      if n = index then decide (n < listing.instructions.size) else listing.isAssigned n := by
  simp only [isAssigned, give, Array.getElem?_modify]
  by_cases same : n = index
  · subst same
    by_cases bound : n < listing.instructions.size <;> simp [bound]
  · simp [same, Ne.symm same]

theorem give_getElem? {listing : Listing} {index : Nat} {instruction : Instruction}
    (found : listing.instructions[index]? = some instruction) (address : UInt32) (line : LineId)
    (n : Nat) : (listing.give index address line).instructions[n]? =
      if n = index then some { instruction with line := some line }
      else listing.instructions[n]? := by
  simp only [give, Array.getElem?_modify]
  by_cases same : n = index
  · simp [same, found]
  · simp [same, Ne.symm same]

theorem give_lines {listing : Listing} {id line : LineId} {old : SourceLine}
    (found : listing.lines[id]? = some old) (index : Nat) (address : UInt32) :
    (listing.give index address line).lines[id]? =
      some { old with
        instructions := if id = line then old.instructions ++ [address] else old.instructions } := by
  simp only [give, Array.getElem?_modify]
  by_cases same : id = line
  · subst same
    simp [found]
  · simp [same, Ne.symm same, found]

theorem give_lines_cases {listing : Listing} {id line : LineId} {index : Nat} {address : UInt32}
    {new : SourceLine} (found : (listing.give index address line).lines[id]? = some new) :
    ∃ old, listing.lines[id]? = some old ∧ new.file = old.file ∧ new.number = old.number ∧
      new.instructions =
        if id = line then old.instructions ++ [address] else old.instructions := by
  have bound : id < listing.lines.size := by
    simpa [give] using (Array.getElem?_eq_some_iff.1 found).1
  have atId := Array.getElem?_eq_getElem bound
  rw [give_lines atId] at found
  obtain rfl := Option.some.inj found
  exact ⟨_, atId, rfl, rfl, rfl⟩

theorem Consistent.unlisted {listing : Listing} (consistent : listing.Consistent) {index : Nat}
    {instruction : Instruction} (found : listing.instructions[index]? = some instruction)
    (free : instruction.line = none) {id : LineId} {line : SourceLine}
    (atId : listing.lines[id]? = some line) :
    instruction.opcode.address ∉ line.instructions := by
  intro member
  obtain ⟨n, other, atN, same, assigned⟩ := (consistent.listed id line _ atId).1 member
  obtain rfl := consistent.index_eq atN found same
  rw [found] at atN
  cases atN
  rw [free] at assigned
  cases assigned

theorem give_listed_iff {listing : Listing} (consistent : listing.Consistent) {index : Nat}
    {instruction : Instruction} {line : LineId}
    (found : listing.instructions[index]? = some instruction) (free : instruction.line = none)
    {id : LineId} {new : SourceLine}
    (atId : (listing.give index instruction.opcode.address line).lines[id]? = some new)
    (address : UInt32) :
    address ∈ new.instructions ↔ ∃ (n : Nat) (other : Instruction),
      (listing.give index instruction.opcode.address line).instructions[n]? = some other ∧
        other.opcode.address = address ∧ other.line = some id := by
  obtain ⟨old, atOld, -, -, list⟩ := give_lines_cases atId
  have before := consistent.listed id old address atOld
  simp only [list, give_getElem? found]
  constructor
  · intro member
    have cases : address ∈ old.instructions ∨
        id = line ∧ address = instruction.opcode.address := by
      split at member
      next same => simpa [same] using member
      next => exact Or.inl member
    rcases cases with member | ⟨rfl, rfl⟩
    · obtain ⟨n, other, atN, same, assigned⟩ := before.1 member
      have differ : n ≠ index := by
        rintro rfl
        rw [found] at atN
        cases atN
        exact consistent.unlisted found free atOld (same ▸ member)
      exact ⟨n, other, by rw [if_neg differ]; exact atN, same, assigned⟩
    · exact ⟨index, _, if_pos rfl, rfl, rfl⟩
  · rintro ⟨n, other, atN, same, assigned⟩
    split at atN
    next =>
      cases atN
      cases assigned
      simp [← same]
    next =>
      have member := before.2 ⟨n, other, atN, same, assigned⟩
      split
      next => exact List.mem_append_left _ member
      next => exact member

theorem give_consistent {listing : Listing} (consistent : listing.Consistent) {index : Nat}
    {instruction : Instruction} {line : LineId}
    (found : listing.instructions[index]? = some instruction) (free : instruction.line = none)
    (known : line < listing.lines.size) :
    (listing.give index instruction.opcode.address line).Consistent := by
  constructor
  case ascending =>
    rw [give_code]
    exact consistent.ascending
  case assigned =>
    intro n other id atN assigned
    have size : (listing.give index instruction.opcode.address line).lines.size =
        listing.lines.size := by simp [give]
    rw [size]
    rw [give_getElem? found] at atN
    split at atN
    next =>
      cases atN
      cases assigned
      exact known
    next => exact consistent.assigned n other id atN assigned
  case distinct =>
    intro id new atId
    obtain ⟨old, atOld, -, -, list⟩ := give_lines_cases atId
    rw [list]
    split
    next =>
      refine List.nodup_append.2 ⟨consistent.distinct id old atOld, by simp, ?_⟩
      intro a member b last same
      obtain rfl := List.mem_singleton.1 last
      exact consistent.unlisted found free atOld (same ▸ member)
    next => exact consistent.distinct id old atOld
  case listed =>
    intro id new address atId
    exact give_listed_iff consistent found free atId address
  case numbered =>
    intro file number id
    have kept : (listing.give index instruction.opcode.address line).numbered? file number =
        listing.numbered? file number := rfl
    rw [kept, consistent.numbered]
    constructor
    · rintro ⟨old, atOld, rfl, rfl⟩
      exact ⟨_, give_lines atOld _ _, rfl, rfl⟩
    · rintro ⟨new, atNew, rfl, rfl⟩
      obtain ⟨old, atOld, file, number, -⟩ := give_lines_cases atNew
      exact ⟨old, atOld, file.symm, number.symm⟩
  case paths => exact consistent.paths

theorem give_continues {listing : Listing} {index : Nat} {instruction : Instruction}
    {line : LineId} (found : listing.instructions[index]? = some instruction)
    (free : instruction.line = none) (known : line < listing.lines.size) :
    listing.Continues (listing.give index instruction.opcode.address line) where
  code := give_code listing index _ line
  files := Nat.le_refl _
  lines := by simp [give]
  assigned n h := by
    rw [give_isAssigned]
    split
    next same =>
      subst same
      simpa using (Array.getElem?_eq_some_iff.1 found).1
    next => exact h
  consistent consistent := give_consistent consistent found free known

end SourceScope.Listing
