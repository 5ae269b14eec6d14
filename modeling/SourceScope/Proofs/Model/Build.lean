import SourceScope.Model.Build
import SourceScope.Proofs.Function.Driver
import SourceScope.Proofs.Listing.Lookup
import SourceScope.Proofs.Listing.Sound
import SourceScope.Proofs.Outcome
import SourceScope.Proofs.Sample
import SourceScope.Proofs.Variable.Fresh

set_option autoImplicit false

namespace SourceScope

namespace Listing

theorem build_function (settings : Settings) (files : FileSystem) (index : EntryIndex)
    (symbols : List Symbol) (functions : FunctionSet) (driver : FunctionId) (found : List Opcode) :
    ∀ line ∈ (build settings files index symbols functions driver found).lines,
      line.function = (line.instructions.head?.bind functions.smallestEnclosing?).getD driver := by
  intro line member
  simp only [build, shortenPaths, assignFunctions, Array.mem_map] at member
  obtain ⟨_, -, rfl⟩ := member
  rfl

end Listing

namespace SourceModel

variable {settings : Settings} {files : FileSystem} {disassemble : Disassembler} {binary : Binary}
  {model : SourceModel}

theorem build_eq_ofIndex (built : build settings files disassemble binary = .ok model) :
    ∃ index frame, model = ofIndex settings files disassemble binary index frame := by
  unfold build at built
  split at built
  · cases built
  · obtain ⟨index, -, built⟩ := bind_eq_ok.1 built
    obtain ⟨frame, -, built⟩ := bind_eq_ok.1 built
    exact ⟨index, frame, (Except.ok.inj built).symm⟩

structure Finished (model : SourceModel) : Prop where
  ascending : model.listing.code.Pairwise fun a b => a.address < b.address
  sound : model.listing.Sound model.functions
  owned : ∀ line ∈ model.listing.lines, line.function =
    (line.instructions.head?.bind model.functions.smallestEnclosing?).getD model.driver
  enclosed : ∀ i ∈ model.listing.instructions,
    ∃ id, model.functions.smallestEnclosing? i.opcode.address = some id

theorem ofIndex_finished (settings : Settings) (files : FileSystem) (disassemble : Disassembler)
    (binary : Binary) (index : EntryIndex) (frame : Option FrameSection) :
    (ofIndex settings files disassemble binary index frame).Finished := by
  have ascending := Listing.opcodes_ascending disassemble binary.code
  simp only [ofIndex]
  generalize (FunctionSet.resolve _ _ _).withSymbolStubs settings.minLineBytes
    binary.functionSymbols = described
  obtain ⟨code, sound⟩ := Listing.build_sound settings files index binary.functionSymbols
    (described.withDriver settings.driverName (Listing.opcodes disassemble binary.code)).2
    (described.withDriver settings.driverName (Listing.opcodes disassemble binary.code)).1
    (Listing.opcodes disassemble binary.code) ascending (FunctionSet.withDriver_lt _ _ _)
  refine ⟨?_, sound, Listing.build_function settings files index _ _ _ _, ?_⟩
  · rw [code]
    exact ascending
  · intro i member
    refine FunctionSet.withDriver_encloses described _ _ ascending ?_
    rw [← code]
    exact List.mem_map.2 ⟨i, Array.mem_toList_iff.2 member, rfl⟩

theorem build_finished (built : build settings files disassemble binary = .ok model) :
    model.Finished := by
  obtain ⟨index, frame, rfl⟩ := build_eq_ofIndex built
  exact ofIndex_finished settings files disassemble binary index frame

theorem Finished.lineIdAt?_covered (finished : model.Finished) {address : UInt32} {i : Instruction}
    (found : model.instructionAt? address = some i) :
    ∃ (id : LineId) (line : SourceLine), model.listing.lineIdAt? address = some id ∧
      model.line? id = some line ∧ i.opcode.address ∈ line.instructions := by
  obtain ⟨nearest, -⟩ := (Listing.instructionAt?_eq_some_iff finished.ascending address i).1 found
  obtain ⟨id, line, atLine, known, listed⟩ := finished.sound.lined i nearest.among
  rw [instructionAt?] at found
  exact ⟨id, line, by rw [Listing.lineIdAt?, found, Option.bind_some, atLine], known, listed⟩

theorem lineIdAt?_uncovered {address : UInt32} (missed : model.instructionAt? address = none) :
    model.listing.lineIdAt? address = none := by
  rw [instructionAt?] at missed
  rw [Listing.lineIdAt?, missed, Option.bind_none]

theorem build_fresh (built : build settings files disassemble binary = .ok model) :
    model.variableSet.Fresh ∧ model.activeLocals = [] := by
  obtain ⟨index, frame, rfl⟩ := build_eq_ofIndex built
  exact ⟨VariableSet.resolve_fresh _, rfl⟩

def noFiles : FileSystem := ⟨fun _ => false, fun _ => .error .notFound⟩

end SourceModel

end SourceScope
