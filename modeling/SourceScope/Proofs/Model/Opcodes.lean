import Mathlib
import SourceScope.Proofs.Listing.Lookup
import SourceScope.Proofs.Machine.Tiling
import SourceScope.Proofs.Model.Rows

set_option autoImplicit false

namespace SourceScope

theorem Opcode.covers_iff (o : Opcode) (address : UInt32) :
    o.covers address = true ↔ o.Holds address := by
  simp only [covers, Bool.and_eq_true, decide_eq_true_eq, Holds, UInt32.le_iff_toNat_le]
  refine and_congr_right fun before => ?_
  have distance := UInt32.toNat_sub_of_le address o.address (UInt32.le_iff_toNat_le.2 before)
  rw [UInt32.lt_iff_toNat_lt, distance, UInt8.toNat_toUInt32]
  omega

theorem Opcode.eq_or_endsBefore {opcodes : List Opcode} (apart : opcodes.Pairwise EndsBefore)
    {a b : Opcode} (first : a ∈ opcodes) (second : b ∈ opcodes) :
    a = b ∨ EndsBefore a b ∨ EndsBefore b a := by
  have symmetric : Std.Symm fun a b : Opcode => a.EndsBefore b ∨ b.EndsBefore a :=
    ⟨fun _ _ => Or.symm⟩
  have either : opcodes.Pairwise fun a b => EndsBefore a b ∨ EndsBefore b a := apart.imp .inl
  by_cases same : a = b
  · exact .inl same
  · exact .inr (either.forall first second same)

namespace Listing

theorem latestOpcodes_eq_self {found : List Opcode}
    (ascending : found.Pairwise fun a b => a.address < b.address) :
    latestOpcodes found = found := by
  fun_induction latestOpcodes found with
  | case1 a b rest same ih =>
    have less := (List.pairwise_cons.1 ascending).1 b (by simp)
    exact absurd same (UInt32.ne_of_lt less)
  | case2 a b rest differ ih => rw [ih ascending.tail]
  | case3 rest short => rfl

theorem opcodes_singleton {disassemble : Disassembler} {s : CodeSection}
    (ascending : (disassemble s.origin s.data).Pairwise fun a b => a.address < b.address) :
    opcodes disassemble [s] = disassemble s.origin s.data := by
  have sorted := ascending.imp fun less => decide_eq_true (UInt32.le_of_lt less)
  rw [opcodes, List.flatMap_singleton, List.mergeSort_of_pairwise sorted,
    latestOpcodes_eq_self ascending]

end Listing

namespace SourceModel

variable {settings : Settings} {files : FileSystem} {disassemble : Disassembler} {binary : Binary}
  {model : SourceModel}

theorem instructionAt?_apart (built : build settings files disassemble binary = .ok model)
    (apart : (Listing.opcodes disassemble binary.code).Pairwise Opcode.EndsBefore)
    (address : UInt32) (o : Opcode) :
    (model.instructionAt? address).map (·.opcode) = some o ↔
      o ∈ Listing.opcodes disassemble binary.code ∧ o.Holds address := by
  have ascending := (build_finished built).ascending
  have code := build_code built
  rw [← code] at apart ⊢
  rw [instructionAt?, Listing.opcodeAt?_eq_some_iff ascending, ← Opcode.covers_iff]
  constructor
  · rintro ⟨member, covers, -⟩
    exact ⟨member, covers⟩
  · rintro ⟨member, covers⟩
    obtain ⟨before, inside⟩ := (Opcode.covers_iff o address).1 covers
    refine ⟨member, covers, UInt32.le_iff_toNat_le.2 before, fun other listed begins => ?_⟩
    -- one that begins later would begin past the address
    rw [UInt32.le_iff_toNat_le] at begins ⊢
    rcases Opcode.eq_or_endsBefore apart listed member with same | earlier | later
    · rw [same]
    · exact Nat.le_trans (Nat.le_add_right _ _) earlier
    · exact absurd (Nat.lt_of_lt_of_le inside later) (Nat.not_lt.2 begins)

/-- Swept code is tiled by its opcodes. A model of it has an instruction at the addresses of the
code and at no others, and that instruction is the opcode which holds the address. -/
theorem sweep_tiles (origin : UInt32) (data : List UInt8)
    (fits : origin.toNat + data.length ≤ 2 ^ 32) :
    Opcode.Tiling origin data (Opcode.sweep origin data) ∧
      ∀ (settings : Settings) (files : FileSystem) (binary : Binary) (model : SourceModel)
        (name : String), binary.code = [⟨name, origin, data⟩] →
        build settings files Opcode.sweep binary = .ok model → ∀ address : UInt32,
          ((model.instructionAt? address).isSome ↔
            origin.toNat ≤ address.toNat ∧ address.toNat < origin.toNat + data.length / 2 * 2) ∧
          ∀ o : Opcode, (model.instructionAt? address).map (·.opcode) = some o ↔
            o ∈ Opcode.sweep origin data ∧ o.Holds address := by
  have tiling := Opcode.tiling_sweep origin data fits
  refine ⟨tiling, ?_⟩
  intro settings files binary model name only built address
  have opcodes : Listing.opcodes Opcode.sweep binary.code = Opcode.sweep origin data := by
    rw [only]
    exact Listing.opcodes_singleton tiling.ascending
  have covered := instructionAt?_apart built (opcodes ▸ tiling.apart) address
  rw [opcodes] at covered
  refine ⟨?_, covered⟩
  rw [← tiling.exists_holds_iff, Option.isSome_iff_exists]
  constructor
  · rintro ⟨i, found⟩
    exact ⟨i.opcode, (covered i.opcode).1 (by rw [found, Option.map_some])⟩
  · rintro ⟨o, held⟩
    obtain ⟨i, found, -⟩ := Option.map_eq_some_iff.1 ((covered o).2 held)
    exact ⟨i, found⟩

def lastCode : CodeSection := ⟨".text", 0xfffffff8, [0, 0xbf, 0, 0xf0, 2, 0xf8, 0, 0xf0]⟩

open Sample in
def lastBytes : Binary := code lastCode.origin lastCode.data [] (debug [] [] [])

set_option maxRecDepth 20000 in
theorem lastBytes_builds :
    (build .default noFiles Opcode.sweep lastBytes).toOption.map (·.units) = some 0 := by
  cbv

theorem sweep_tiles_lastBytes :
    lastCode.origin.toNat + lastCode.data.length = 2 ^ 32 ∧
      Opcode.Tiling 0xfffffff8 lastCode.data
        [.narrow 0xfffffff8 0xbf00, .wide 0xfffffffa 0xf000 0xf802, .narrow 0xfffffffe 0xf000] ∧
      ∃ model, build .default noFiles Opcode.sweep lastBytes = .ok model ∧
        (model.instructionAt? 0xfffffffd).map (·.opcode) = some (.wide 0xfffffffa 0xf000 0xf802) ∧
        (model.instructionAt? 0xffffffff).map (·.opcode) = some (.narrow 0xfffffffe 0xf000) ∧
        model.instructionAt? 0 = none := by
  obtain ⟨tiling, lookups⟩ := sweep_tiles lastCode.origin lastCode.data (by decide)
  obtain ⟨model, built, -⟩ := exists_ok lastBytes_builds
  have swept : Opcode.sweep lastCode.origin lastCode.data =
      [.narrow 0xfffffff8 0xbf00, .wide 0xfffffffa 0xf000 0xf802, .narrow 0xfffffffe 0xf000] := by
    decide +kernel
  have answers := lookups .default noFiles lastBytes model ".text" rfl built
  rw [swept] at tiling answers
  refine ⟨by decide, tiling, model, built, ?_, ?_, ?_⟩
  · exact ((answers 0xfffffffd).2 _).2 ⟨by simp, by decide, by decide⟩
  · exact ((answers 0xffffffff).2 _).2 ⟨by simp, by decide, by decide⟩
  · rw [← Option.not_isSome_iff_eq_none, (answers 0).1]
    decide

end SourceModel

end SourceScope
