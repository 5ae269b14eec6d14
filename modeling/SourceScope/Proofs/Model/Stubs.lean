import Mathlib
import SourceScope.Proofs.Function.Rivals
import SourceScope.Proofs.Function.Stubs
import SourceScope.Proofs.Model.Rows

set_option autoImplicit false

namespace SourceScope.SourceModel

open FunctionSet

variable {settings : Settings} {files : FileSystem} {disassemble : Disassembler} {binary : Binary}
  {model : SourceModel} {index : EntryIndex}

def describedFunctions (binary : Binary) (index : EntryIndex) : FunctionSet :=
  FunctionSet.resolve index ⟨binary.order, binary.debugSections.data ".debug_ranges"⟩
    ⟨binary.order, binary.debugSections.data ".debug_loc"⟩

theorem build_functions (built : build settings files disassemble binary = .ok model)
    (loaded : EntryIndex.load binary.debugSections = .ok index) :
    model.functions = (describedFunctions binary index).completed settings disassemble binary := by
  obtain ⟨frame, rfl⟩ := build_eq_ofLoaded built loaded
  rfl

def Added (settings : Settings) (disassemble : Disassembler) (binary : Binary) (index : EntryIndex)
    (address : UInt32) (p : CodeRange × FunctionId) : Prop :=
  Rival (describedFunctions binary index)
    ((describedFunctions binary index).additions settings disassemble binary) address p

/-- Described code keeps its owner exactly if one of the owner's ranges around the address goes before
all that stubs and the driver have there. Otherwise it goes to the function of such a range. -/
theorem owner_kept_iff (built : build settings files disassemble binary = .ok model)
    (loaded : EntryIndex.load binary.debugSections = .ok index) {address : UInt32}
    (described : Covered (describedFunctions binary index).ranges address) :
    ∃ owner, (describedFunctions binary index).smallestEnclosing? address = some owner ∧
      (model.functions.smallestEnclosing? address = some owner ↔
        ∃ r, model.functions.Encloses address (r, owner) ∧
          ∀ q, Added settings disassemble binary index address q → ¬Beats q (r, owner)) ∧
      ∃ other, model.functions.smallestEnclosing? address = some other ∧
        (other = owner ∨ ∃ r, Added settings disassemble binary index address (r, other)) := by
  obtain ⟨r, listed, inside⟩ := described
  obtain ⟨owner, owned⟩ := smallestEnclosing?_isSome listed inside
  rw [build_functions built loaded, completed_eq]
  have kept := mem_ranges_insertAll (describedFunctions binary index)
    ((describedFunctions binary index).additions settings disassemble binary) (.inl listed)
  obtain ⟨other, after⟩ := smallestEnclosing?_isSome kept inside
  exact ⟨owner, owned, owner_insertAll_iff owned, other, after, owner_insertAll_cases owned after⟩

open Sample in
def sizelessBefore : Binary :=
  code 0x100 (nops 5) [function "start" 0x100 0] <| debug (unitKind ++ functionKind false [] ++ [0])
    (unit (1 :: cString "a" ++ functionAt 0x102 8 [0])) []

set_option maxRecDepth 20000 in
theorem sizelessBefore_owners :
    (build .default noFiles Opcode.sweep sizelessBefore).toOption.map (fun model =>
      (model.functions.smallestEnclosing? 0x102, model.functions.smallestEnclosing? 0x105)) =
        some (some 1, some 0) := by
  cbv

set_option maxRecDepth 20000 in
theorem sizelessBefore_described :
    (EntryIndex.load sizelessBefore.debugSections).toOption.map (fun index =>
      ((describedFunctions sizelessBefore index).smallestEnclosing? 0x102,
        (describedFunctions sizelessBefore index).smallestEnclosing? 0x105)) =
        some (some 0, some 0) := by
  cbv

theorem owner_kept_iff_sizelessBefore :
    ∃ model index, build .default noFiles Opcode.sweep sizelessBefore = .ok model ∧
      EntryIndex.load sizelessBefore.debugSections = .ok index ∧
      Covered (describedFunctions sizelessBefore index).ranges 0x102 ∧
      Covered (describedFunctions sizelessBefore index).ranges 0x105 ∧
      (∃ r, Added .default Opcode.sweep sizelessBefore index 0x102 (r, 1)) ∧
      ∃ r, model.functions.Encloses 0x105 (r, 0) ∧
        ∀ q, Added .default Opcode.sweep sizelessBefore index 0x105 q → ¬Beats q (r, 0) := by
  obtain ⟨model, built, after⟩ := exists_ok sizelessBefore_owners
  obtain ⟨index, loaded, before⟩ := exists_ok sizelessBefore_described
  obtain ⟨takenAfter, keptAfter⟩ := Prod.mk.inj after
  obtain ⟨takenBefore, keptBefore⟩ := Prod.mk.inj before
  have first := covered_of_owned takenBefore
  have second := covered_of_owned keptBefore
  refine ⟨model, index, built, loaded, first, second, ?_, ?_⟩
  · obtain ⟨owner, owned, -, other, taker, kept | added⟩ := owner_kept_iff built loaded first
    · rw [takenBefore, Option.some.injEq] at owned
      rw [takenAfter, Option.some.injEq] at taker
      subst owned taker
      cases kept
    · rw [takenAfter, Option.some.injEq] at taker
      rwa [taker]
  · obtain ⟨owner, owned, kept, -⟩ := owner_kept_iff built loaded second
    rw [keptBefore, Option.some.injEq] at owned
    subst owned
    exact kept.1 keptAfter

/-- An address of the function `f` belongs to it before stubs are added, and not after. -/
theorem sizelessBefore_taken :
    ∃ model index, build .default noFiles Opcode.sweep sizelessBefore = .ok model ∧
      EntryIndex.load sizelessBefore.debugSections = .ok index ∧
      Covered (describedFunctions sizelessBefore index).ranges 0x102 ∧
      model.functions.smallestEnclosing? 0x102 ≠
        (describedFunctions sizelessBefore index).smallestEnclosing? 0x102 := by
  obtain ⟨model, built, after⟩ := exists_ok sizelessBefore_owners
  obtain ⟨index, loaded, before⟩ := exists_ok sizelessBefore_described
  refine ⟨model, index, built, loaded, covered_of_owned (Prod.mk.inj before).1, ?_⟩
  rw [(Prod.mk.inj after).1, (Prod.mk.inj before).1]
  decide

end SourceScope.SourceModel
