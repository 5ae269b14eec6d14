import SourceScope.Proofs.Listing.Opcodes

set_option autoImplicit false

namespace SourceScope.Listing

def code (listing : Listing) : List Opcode := listing.instructions.toList.map (·.opcode)

def numbered? (listing : Listing) (file : FileId) (number : UInt32) : Option LineId :=
  (listing.files[file]?).bind (·.line? number)

def isAssigned (listing : Listing) (index : Nat) : Bool :=
  (listing.instructions[index]?).any (·.line.isSome)

structure Consistent (listing : Listing) : Prop where
  ascending : listing.code.Pairwise fun a b => a.address < b.address
  assigned : ∀ (index : Nat) (instruction : Instruction) (id : LineId),
    listing.instructions[index]? = some instruction → instruction.line = some id →
      id < listing.lines.size
  distinct : ∀ (id : LineId) (line : SourceLine), listing.lines[id]? = some line →
    line.instructions.Nodup
  listed : ∀ (id : LineId) (line : SourceLine) (address : UInt32),
    listing.lines[id]? = some line →
      (address ∈ line.instructions ↔ ∃ (index : Nat) (instruction : Instruction),
        listing.instructions[index]? = some instruction ∧
          instruction.opcode.address = address ∧ instruction.line = some id)
  numbered : ∀ (file : FileId) (number : UInt32) (id : LineId),
    listing.numbered? file number = some id ↔ ∃ line : SourceLine,
      listing.lines[id]? = some line ∧ line.file = file ∧ line.number = number
  paths : ∀ (f g : FileId) (a b : SourceFile), listing.files[f]? = some a →
    listing.files[g]? = some b → a.path = b.path → f = g

theorem pairwise_toList {A : Type} {R : A → A → Prop} {items : Array A}
    (each : ∀ (m n : Nat) (a b : A), m < n → items[m]? = some a → items[n]? = some b → R a b) :
    items.toList.Pairwise R := by
  refine List.pairwise_iff_getElem.2 fun m n mBound nBound less => each m n _ _ less ?_ ?_
  · rw [← Array.getElem?_toList, List.getElem?_eq_getElem mBound]
  · rw [← Array.getElem?_toList, List.getElem?_eq_getElem nBound]

theorem getElem?_code (listing : Listing) (index : Nat) :
    listing.code[index]? = (listing.instructions[index]?).map (·.opcode) := by
  simp [code]

theorem address_lt {listing : Listing}
    (ascending : listing.code.Pairwise fun a b => a.address < b.address) {m n : Nat}
    {i j : Instruction} (less : m < n) (first : listing.instructions[m]? = some i)
    (second : listing.instructions[n]? = some j) : i.opcode.address < j.opcode.address := by
  have atFirst : listing.code[m]? = some i.opcode := by rw [getElem?_code, first]; rfl
  have atSecond : listing.code[n]? = some j.opcode := by rw [getElem?_code, second]; rfl
  obtain ⟨mBound, mEq⟩ := List.getElem?_eq_some_iff.1 atFirst
  obtain ⟨nBound, nEq⟩ := List.getElem?_eq_some_iff.1 atSecond
  have before := List.pairwise_iff_getElem.1 ascending m n mBound nBound less
  rwa [mEq, nEq] at before

theorem Consistent.index_eq {listing : Listing} (consistent : listing.Consistent)
    {m n : Nat} {i j : Instruction} (first : listing.instructions[m]? = some i)
    (second : listing.instructions[n]? = some j) (same : i.opcode.address = j.opcode.address) :
    m = n := by
  rcases Nat.lt_trichotomy m n with less | equal | greater
  · exact absurd same (UInt32.ne_of_lt (address_lt consistent.ascending less first second))
  · exact equal
  · exact absurd same.symm
      (UInt32.ne_of_lt (address_lt consistent.ascending greater second first))

theorem Consistent.place_unique {listing : Listing} (consistent : listing.Consistent)
    {m n : LineId} {a b : SourceLine} (first : listing.lines[m]? = some a)
    (second : listing.lines[n]? = some b) (file : a.file = b.file) (number : a.number = b.number) :
    m = n := by
  have atFirst := (consistent.numbered a.file a.number m).2 ⟨a, first, rfl, rfl⟩
  have atSecond := (consistent.numbered a.file a.number n).2 ⟨b, second, file.symm, number.symm⟩
  exact Option.some.inj (atFirst.symm.trans atSecond)

theorem Consistent.lister_unique {listing : Listing} (consistent : listing.Consistent)
    {m n : LineId} {a b : SourceLine} (first : listing.lines[m]? = some a)
    (second : listing.lines[n]? = some b) {address : UInt32} (inFirst : address ∈ a.instructions)
    (inSecond : address ∈ b.instructions) : m = n := by
  obtain ⟨k, i, atK, iAddress, iLine⟩ := (consistent.listed m a address first).1 inFirst
  obtain ⟨l, j, atL, jAddress, jLine⟩ := (consistent.listed n b address second).1 inSecond
  obtain rfl := consistent.index_eq atK atL (iAddress.trans jAddress.symm)
  obtain rfl := Option.some.inj (atK.symm.trans atL)
  exact Option.some.inj (iLine.symm.trans jLine)

structure Outline where
  files : Array (String × List (UInt32 × LineId))
  lines : Array (FileId × UInt32 × List UInt32)
  instructions : Array Instruction

def outline (listing : Listing) : Outline where
  files := listing.files.map fun f => (f.path, f.lines)
  lines := listing.lines.map fun l => (l.file, l.number, l.instructions)
  instructions := listing.instructions

theorem line_of_outline {a b : Listing} (same : a.outline = b.outline) {id : LineId}
    {line : SourceLine} (found : b.lines[id]? = some line) :
    ∃ other, a.lines[id]? = some other ∧ other.file = line.file ∧ other.number = line.number ∧
      other.instructions = line.instructions := by
  have lines := congrArg (fun outline => outline.lines[id]?) same
  simp only [outline, Array.getElem?_map, found, Option.map_some, Option.map_eq_some_iff,
    Prod.mk.injEq] at lines
  exact lines

theorem file_of_outline {a b : Listing} (same : a.outline = b.outline) {id : FileId}
    {file : SourceFile} (found : b.files[id]? = some file) :
    ∃ other, a.files[id]? = some other ∧ other.path = file.path ∧ other.lines = file.lines := by
  have files := congrArg (fun outline => outline.files[id]?) same
  simp only [outline, Array.getElem?_map, found, Option.map_some, Option.map_eq_some_iff,
    Prod.mk.injEq] at files
  exact files

theorem numbered?_of_outline {a b : Listing} (same : a.outline = b.outline) (file : FileId)
    (number : UInt32) : a.numbered? file number = b.numbered? file number := by
  have view (listing : Listing) : listing.numbered? file number =
      (listing.outline.files[file]?).bind fun f => f.2.lookup number := by
    cases found : listing.files[file]? <;>
      simp [numbered?, outline, SourceFile.line?, found]
  rw [view a, view b, same]

theorem instructions_of_outline {a b : Listing} (same : a.outline = b.outline) :
    a.instructions = b.instructions :=
  congrArg Outline.instructions same

theorem Consistent.of_outline {a b : Listing} (same : a.outline = b.outline)
    (consistent : a.Consistent) : b.Consistent := by
  have instructions := instructions_of_outline same
  have size : a.lines.size = b.lines.size := by
    simpa [outline] using congrArg (fun outline => outline.lines.size) same
  constructor
  case ascending => simpa only [code, instructions] using consistent.ascending
  case assigned =>
    intro index instruction id found line
    rw [← instructions] at found
    rw [← size]
    exact consistent.assigned index instruction id found line
  case distinct =>
    intro id line found
    obtain ⟨other, atOther, -, -, list⟩ := line_of_outline same found
    exact list ▸ consistent.distinct id other atOther
  case listed =>
    intro id line address found
    obtain ⟨other, atOther, -, -, list⟩ := line_of_outline same found
    rw [← list, ← instructions]
    exact consistent.listed id other address atOther
  case numbered =>
    intro file number id
    rw [← numbered?_of_outline same, consistent.numbered]
    constructor
    · rintro ⟨line, found, rfl, rfl⟩
      obtain ⟨other, atOther, file, number, -⟩ := line_of_outline same.symm found
      exact ⟨other, atOther, file, number⟩
    · rintro ⟨line, found, rfl, rfl⟩
      obtain ⟨other, atOther, file, number, -⟩ := line_of_outline same found
      exact ⟨other, atOther, file, number⟩
  case paths =>
    intro f g x y atF atG path
    obtain ⟨first, atFirst, firstPath, -⟩ := file_of_outline same atF
    obtain ⟨second, atSecond, secondPath, -⟩ := file_of_outline same atG
    exact consistent.paths f g first second atFirst atSecond
      (firstPath.trans (path.trans secondPath.symm))

/-- How a listing changes while it is built: it loses nothing, and stays consistent. -/
structure Continues (a b : Listing) : Prop where
  code : b.code = a.code
  files : a.files.size ≤ b.files.size
  lines : a.lines.size ≤ b.lines.size
  assigned : ∀ index, a.isAssigned index → b.isAssigned index
  consistent : a.Consistent → b.Consistent

theorem Continues.refl (listing : Listing) : listing.Continues listing :=
  ⟨rfl, Nat.le_refl _, Nat.le_refl _, fun _ h => h, id⟩

theorem Continues.trans {a b c : Listing} (first : a.Continues b) (second : b.Continues c) :
    a.Continues c where
  code := second.code.trans first.code
  files := Nat.le_trans first.files second.files
  lines := Nat.le_trans first.lines second.lines
  assigned index h := second.assigned index (first.assigned index h)
  consistent h := second.consistent (first.consistent h)

theorem Continues.of_outline {a b : Listing} (same : a.outline = b.outline) : a.Continues b where
  code := by rw [Listing.code, Listing.code, instructions_of_outline same]
  files := by
    have size := congrArg (fun outline => outline.files.size) same
    simp only [outline, Array.size_map] at size
    exact Nat.le_of_eq size
  lines := by
    have size := congrArg (fun outline => outline.lines.size) same
    simp only [outline, Array.size_map] at size
    exact Nat.le_of_eq size
  assigned index h := by rwa [isAssigned, ← instructions_of_outline same]
  consistent := Consistent.of_outline same

theorem Continues.foldl {A : Type} (step : Listing → A → Listing) (items : List A)
    (listing : Listing) (each : ∀ a : Listing, ∀ item ∈ items, listing.Continues a →
      a.Continues (step a item)) :
    listing.Continues (items.foldl step listing) := by
  induction items generalizing listing with
  | nil => exact Continues.refl listing
  | cons item rest ih =>
    have first := each listing item (by simp) (Continues.refl listing)
    refine first.trans (ih (step listing item) ?_)
    intro a later member continues
    exact each a later (by simp [member]) (first.trans continues)

theorem ofOpcodes_consistent (found : List Opcode)
    (ascending : found.Pairwise fun a b => a.address < b.address) :
    (ofOpcodes found).Consistent := by
  have unassigned (index : Nat) (instruction : Instruction)
      (atIndex : (ofOpcodes found).instructions[index]? = some instruction) :
      instruction.line = none := by
    simp only [ofOpcodes, List.getElem?_toArray, List.getElem?_map, Option.map_eq_some_iff] at atIndex
    obtain ⟨_, -, rfl⟩ := atIndex
    rfl
  constructor
  case ascending => simpa [code, ofOpcodes, Function.comp_def] using ascending
  case assigned =>
    intro index instruction id atIndex line
    rw [unassigned index instruction atIndex] at line
    cases line
  all_goals simp [ofOpcodes, numbered?]

end SourceScope.Listing
