import Mathlib
import SourceScope.Proofs.Listing.Lookup
import SourceScope.Proofs.Model.Build

set_option autoImplicit false

namespace SourceScope

namespace Listing

def Leads (listing : Listing) (first : UInt32) (i : Instruction) : Prop :=
  ∃ (id : LineId) (line : SourceLine), i.line = some id ∧ listing.lines[id]? = some line ∧
    line.instructions.head? = some first

end Listing

namespace SourceModel

variable {model : SourceModel}

theorem Finished.leads (finished : model.Finished) {i : Instruction}
    (member : i ∈ model.listing.instructions) :
    ∃ first owner, model.listing.Leads first i ∧
      model.functions.smallestEnclosing? first = some owner := by
  obtain ⟨id, line, atLine, found, listed⟩ := finished.sound.lined i member
  cases head : line.instructions.head? with
  | none =>
    rw [List.head?_eq_none_iff.1 head] at listed
    cases listed
  | some first =>
    -- the first address of a line is that of an instruction, and so it is in a function
    obtain ⟨leader, among, rfl⟩ := finished.sound.listed line (Array.mem_of_getElem? found) first
      (List.mem_of_head? head)
    obtain ⟨owner, encloses⟩ := finished.enclosed leader among
    exact ⟨_, owner, ⟨id, line, atLine, found, head⟩, encloses⟩

theorem Finished.functionAt?_eq (finished : model.Finished) {address first : UInt32}
    {i : Instruction} {owner : FunctionId} (nearest : model.listing.Nearest address i)
    (covers : i.opcode.covers address = true) (leads : model.listing.Leads first i)
    (encloses : model.functions.smallestEnclosing? first = some owner) :
    model.functionAt? address = model.functions.get? owner := by
  obtain ⟨id, line, atLine, found, head⟩ := leads
  have atAddress := (Listing.instructionAt?_eq_some_iff finished.ascending address i).2
    ⟨nearest, covers⟩
  have function := finished.owned line (Array.mem_of_getElem? found)
  rw [head, Option.bind_some, encloses, Option.getD_some] at function
  simp [functionAt?, lineAt?, Listing.lineAt?, Listing.lineIdAt?, atAddress, atLine, found, function]

theorem Finished.functionAt?_eq_none (finished : model.Finished) {address : UInt32}
    (outside : ∀ i, model.listing.Nearest address i → i.opcode.covers address = false) :
    model.functionAt? address = none := by
  cases found : model.listing.instructionAt? address with
  | none => simp [functionAt?, lineAt?, Listing.lineAt?, Listing.lineIdAt?, found]
  | some i =>
    obtain ⟨nearest, covers⟩ :=
      (Listing.instructionAt?_eq_some_iff finished.ascending address i).1 found
    simp [outside i nearest] at covers

theorem Finished.functionAt?_eq_some_iff (finished : model.Finished) (address : UInt32)
    (f : SourceFunction) :
    model.functionAt? address = some f ↔
      ∃ i first owner, model.listing.Nearest address i ∧ i.opcode.covers address = true ∧
        model.listing.Leads first i ∧ model.functions.smallestEnclosing? first = some owner ∧
        model.functions.get? owner = some f := by
  constructor
  · intro answer
    by_cases covered : ∃ i, model.listing.Nearest address i ∧ i.opcode.covers address = true
    · obtain ⟨i, nearest, covers⟩ := covered
      obtain ⟨first, owner, leads, encloses⟩ := finished.leads nearest.among
      rw [finished.functionAt?_eq nearest covers leads encloses] at answer
      exact ⟨i, first, owner, nearest, covers, leads, encloses, answer⟩
    · rw [finished.functionAt?_eq_none fun i nearest =>
        Bool.eq_false_iff.2 fun covers => covered ⟨i, nearest, covers⟩] at answer
      cases answer
  · rintro ⟨i, first, owner, nearest, covers, leads, encloses, atOwner⟩
    rw [finished.functionAt?_eq nearest covers leads encloses, atOwner]

theorem Finished.functionAt?_isSome_iff (finished : model.Finished) (address : UInt32) :
    (model.functionAt? address).isSome ↔
      ∃ i, model.listing.Nearest address i ∧ i.opcode.covers address = true := by
  rw [Option.isSome_iff_exists]
  constructor
  · rintro ⟨f, answer⟩
    obtain ⟨i, -, -, nearest, covers, -⟩ := (finished.functionAt?_eq_some_iff address f).1 answer
    exact ⟨i, nearest, covers⟩
  · rintro ⟨i, nearest, covers⟩
    obtain ⟨first, owner, leads, encloses⟩ := finished.leads nearest.among
    obtain ⟨f, -, atOwner, -⟩ := FunctionSet.smallestEnclosing?_mem encloses
    exact ⟨f, (finished.functionAt?_eq_some_iff address f).2
      ⟨i, first, owner, nearest, covers, leads, encloses, atOwner⟩⟩

/-- An address has a function when the nearest instruction covers it. That function contains the
address exactly if the one around the first instruction of the line does. -/
theorem owner_contains_iff {settings : Settings} {files : FileSystem} {disassemble : Disassembler}
    {binary : Binary} (built : build settings files disassemble binary = .ok model)
    (address : UInt32) :
    ((model.functionAt? address).isSome ↔
      ∃ i, model.listing.Nearest address i ∧ i.opcode.covers address = true) ∧
    ((∃ f, model.functionAt? address = some f ∧ f.contains address = true) ↔
      ∃ i first owner f, model.listing.Nearest address i ∧ i.opcode.covers address = true ∧
        model.listing.Leads first i ∧ model.functions.smallestEnclosing? first = some owner ∧
        model.functions.get? owner = some f ∧ f.contains address = true) := by
  have finished := build_finished built
  refine ⟨finished.functionAt?_isSome_iff address, ?_⟩
  constructor
  · rintro ⟨f, answer, inside⟩
    obtain ⟨i, first, owner, nearest, covers, leads, encloses, atOwner⟩ :=
      (finished.functionAt?_eq_some_iff address f).1 answer
    exact ⟨i, first, owner, f, nearest, covers, leads, encloses, atOwner, inside⟩
  · rintro ⟨i, first, owner, f, nearest, covers, leads, encloses, atOwner, inside⟩
    exact ⟨f, (finished.functionAt?_eq_some_iff address f).2
      ⟨i, first, owner, nearest, covers, leads, encloses, atOwner⟩, inside⟩

open Sample in
def sharedLine : Binary :=
  withLines [function "foo" 0x100 2, function "bar" 0x102 2] ["m.c"] <|
    sequence 0x100 [3, 4, 1, 2, 2, 1]

-- Whether an address is covered, whether it is in a function, and whether that of its line has it.
def probe (model : SourceModel) (address : UInt32) : Bool × Bool × Bool :=
  (model.listing.instructions.any (·.opcode.covers address),
    model.functions.functions.any (·.contains address),
    (model.functionAt? address).any (·.contains address))

set_option maxRecDepth 20000 in
theorem sharedLine_probe :
    (build .default noFiles Opcode.sweep sharedLine).toOption.map
      (fun model => (model.probe 0x100, model.probe 0x102)) =
        some ((true, true, true), (true, true, false)) := by
  cbv

theorem sharedLine_builds : ∃ model, build .default noFiles Opcode.sweep sharedLine = .ok model ∧
    model.probe 0x100 = (true, true, true) ∧ model.probe 0x102 = (true, true, false) := by
  obtain ⟨model, built, probes⟩ := exists_ok sharedLine_probe
  exact ⟨model, built, Prod.mk.inj probes⟩

theorem owner_contains_sharedLine :
    ∃ model, build .default noFiles Opcode.sweep sharedLine = .ok model ∧
      (∃ i first owner f, model.listing.Nearest 0x100 i ∧ i.opcode.covers 0x100 = true ∧
        model.listing.Leads first i ∧ model.functions.smallestEnclosing? first = some owner ∧
        model.functions.get? owner = some f ∧ f.contains 0x100 = true) ∧
      ¬ ∃ i first owner f, model.listing.Nearest 0x102 i ∧ i.opcode.covers 0x102 = true ∧
        model.listing.Leads first i ∧ model.functions.smallestEnclosing? first = some owner ∧
        model.functions.get? owner = some f ∧ f.contains 0x102 = true := by
  obtain ⟨model, built, first, second⟩ := sharedLine_builds
  simp only [probe, Prod.mk.injEq, Option.any_eq_true, Option.any_eq_false] at first second
  refine ⟨model, built, ?_, ?_⟩
  · exact (owner_contains_iff built 0x100).2.1 first.2.2
  · intro owned
    obtain ⟨f, answer, inside⟩ := (owner_contains_iff built 0x102).2.2 owned
    simp [second.2.2 f answer] at inside

/-- The second address of the shared line is covered and in a function, but not in the one that it
is said to belong to. -/
theorem sharedLine_strays :
    ∃ model, build .default noFiles Opcode.sweep sharedLine = .ok model ∧
      (∃ i ∈ model.listing.instructions, i.opcode.covers 0x102 = true) ∧
      (∃ f ∈ model.functions.functions, f.contains 0x102 = true) ∧
      ¬ ∃ f, model.functionAt? 0x102 = some f ∧ f.contains 0x102 = true := by
  obtain ⟨model, built, -, second⟩ := sharedLine_builds
  simp only [probe, Prod.mk.injEq, Array.any_eq_true', List.any_eq_true, Option.any_eq_false] at second
  obtain ⟨covered, inside, strays⟩ := second
  refine ⟨model, built, covered, inside, ?_⟩
  rintro ⟨f, answer, contains⟩
  simp [strays f answer] at contains

end SourceModel

end SourceScope
