import SourceScope.Listing.Build
import SourceScope.Proofs.Order.Sorted

set_option autoImplicit false

namespace SourceScope.Listing

theorem latestOpcodes_sublist (found : List Opcode) : (latestOpcodes found).Sublist found := by
  fun_induction latestOpcodes found with
  | case1 a b rest same ih => exact ih.cons a
  | case2 a b rest differ ih => exact ih.cons_cons a
  | case3 rest short => exact List.Sublist.refl rest

theorem latestOpcodes_ascending (found : List Opcode)
    (sorted : found.Pairwise fun a b => a.address ≤ b.address) :
    (latestOpcodes found).Pairwise fun a b => a.address < b.address := by
  fun_induction latestOpcodes found with
  | case1 a b rest same ih => exact ih sorted.tail
  | case2 a b rest differ ih =>
    refine List.pairwise_cons.2 ⟨?_, ih sorted.tail⟩
    intro later member
    have first : a.address < b.address :=
      Std.lt_of_le_of_ne ((List.pairwise_cons.1 sorted).1 b (by simp)) differ
    have inRest : later ∈ b :: rest := (latestOpcodes_sublist (b :: rest)).subset member
    rcases List.mem_cons.1 inRest with rfl | inRest
    · exact first
    · exact Std.lt_of_lt_of_le first ((List.pairwise_cons.1 sorted.tail).1 later inRest)
  | case3 rest short =>
    match rest, short with
    | [], _ => exact List.Pairwise.nil
    | [a], _ => simp
    | a :: b :: rest, short => exact absurd rfl (short a b rest)

theorem exists_latestOpcodes {found : List Opcode} {o : Opcode} (member : o ∈ found) :
    ∃ p ∈ latestOpcodes found, p.address = o.address := by
  fun_induction latestOpcodes found generalizing o with
  | case1 a b rest same ih =>
    rcases List.mem_cons.1 member with rfl | among
    · obtain ⟨p, kept, atB⟩ := ih List.mem_cons_self
      exact ⟨p, kept, atB.trans same.symm⟩
    · exact ih among
  | case2 a b rest differ ih =>
    rcases List.mem_cons.1 member with rfl | among
    · exact ⟨o, by simp, rfl⟩
    · obtain ⟨p, kept, atO⟩ := ih among
      exact ⟨p, List.mem_cons_of_mem _ kept, atO⟩
  | case3 rest short => exact ⟨o, member, rfl⟩

theorem exists_opcodes {disassemble : Disassembler} {code : List CodeSection} {s : CodeSection}
    (inCode : s ∈ code) {o : Opcode} (member : o ∈ disassemble s.origin s.data) :
    ∃ p ∈ opcodes disassemble code, p.address = o.address :=
  exists_latestOpcodes (List.mem_mergeSort.2 (List.mem_flatMap.2 ⟨s, inCode, member⟩))

theorem opcodes_ascending (disassemble : Disassembler) (code : List CodeSection) :
    (opcodes disassemble code).Pairwise fun a b => a.address < b.address := by
  exact latestOpcodes_ascending _ (mergeSort_ascending Opcode.address _)

end SourceScope.Listing
