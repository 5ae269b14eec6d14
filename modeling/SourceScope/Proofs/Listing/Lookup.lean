import SourceScope.Proofs.Listing.Consistent
import SourceScope.Proofs.Order.PartitionPoint

set_option autoImplicit false

namespace SourceScope.Listing

structure Nearest (listing : Listing) (address : UInt32) (i : Instruction) : Prop where
  among : i ∈ listing.instructions
  before : i.opcode.address ≤ address
  last : ∀ other ∈ listing.instructions, other.opcode.address ≤ address →
    other.opcode.address ≤ i.opcode.address

section

variable {listing : Listing}
  (ascending : listing.code.Pairwise fun a b => a.address < b.address)
include ascending

theorem address_le {m n : Nat} {i j : Instruction} (le : m ≤ n)
    (first : listing.instructions[m]? = some i) (second : listing.instructions[n]? = some j) :
    i.opcode.address ≤ j.opcode.address := by
  rcases Nat.eq_or_lt_of_le le with rfl | less
  · rw [Option.some.inj (first.symm.trans second)]
    exact UInt32.le_refl _
  · exact UInt32.le_of_lt (address_lt ascending less first second)

theorem addresses_pairwise :
    listing.instructions.toList.Pairwise fun i j => i.opcode.address < j.opcode.address := by
  rw [code, List.pairwise_map] at ascending
  exact ascending

theorem partitioned (address : UInt32) :
    Partitioned (fun i : Instruction => decide (i.opcode.address ≤ address))
      listing.instructions := by
  refine Partitioned.of_pairwise (addresses_pairwise ascending) fun a b less below => ?_
  rw [decide_eq_true_iff] at below ⊢
  exact UInt32.le_trans (UInt32.le_of_lt less) below

theorem nearest_iff (address : UInt32) (i : Instruction) :
    listing.Nearest address i ↔ ∃ index : Nat, listing.instructions[index]? = some i ∧
      partitionPoint (fun i : Instruction => decide (i.opcode.address ≤ address))
        listing.instructions = index + 1 := by
  have split := fun (n : Nat) (a : Instruction) =>
    @lt_partitionPoint_iff _ _ _ (partitioned ascending address) n a
  have size := partitionPoint_le_size
    (fun i : Instruction => decide (i.opcode.address ≤ address)) listing.instructions
  generalize partitionPoint _ listing.instructions = point at split size
  simp only [decide_eq_true_eq] at split
  constructor
  · intro nearest
    obtain ⟨index, bound, rfl⟩ := Array.mem_iff_getElem.1 nearest.among
    have atIndex := Array.getElem?_eq_getElem bound
    refine ⟨index, atIndex, ?_⟩
    have inFront := (split index _ atIndex).2 nearest.before
    rcases Nat.eq_or_lt_of_le (Nat.succ_le_of_lt inFront) with equal | less
    · exact equal.symm
    · -- an instruction between this one and the point would be nearer
      have inside : index + 1 < listing.instructions.size := by omega
      have atNext := Array.getElem?_eq_getElem inside
      have nearer := nearest.last _ (Array.getElem_mem inside) ((split _ _ atNext).1 less)
      have after := address_lt ascending (Nat.lt_succ_self index) atIndex atNext
      exact absurd (Std.lt_of_lt_of_le after nearer) (UInt32.lt_irrefl _)
  · rintro ⟨index, atIndex, rfl⟩
    refine ⟨Array.mem_of_getElem? atIndex, (split index i atIndex).1 (Nat.lt_succ_self index), ?_⟩
    intro other member before
    obtain ⟨n, bound, rfl⟩ := Array.mem_iff_getElem.1 member
    have atN := Array.getElem?_eq_getElem bound
    have inFront := (split n _ atN).2 before
    exact address_le ascending (Nat.le_of_lt_succ inFront) atN atIndex

theorem instructionAt?_eq_some_iff (address : UInt32) (i : Instruction) :
    listing.instructionAt? address = some i ↔
      listing.Nearest address i ∧ i.opcode.covers address = true := by
  rw [nearest_iff ascending, instructionAt?, Option.bind_eq_some_iff, instructionIndex?]
  constructor
  · rintro ⟨index, found, atIndex⟩
    split at found
    next => cases found
    next n point =>
      cases atN : listing.instructions[n]? with
      | none => simp [atN] at found
      | some near =>
        simp only [atN, Option.ite_none_right_eq_some, Option.some.injEq] at found
        obtain ⟨covers, rfl⟩ := found
        obtain rfl := Option.some.inj (atN.symm.trans atIndex)
        exact ⟨⟨n, atN, point⟩, covers⟩
  · rintro ⟨⟨index, atIndex, point⟩, covers⟩
    refine ⟨index, ?_, atIndex⟩
    simp [point, atIndex, covers]

theorem opcodeAt?_eq_some_iff (address : UInt32) (o : Opcode) :
    (listing.instructionAt? address).map (·.opcode) = some o ↔
      o ∈ listing.code ∧ o.covers address = true ∧ o.address ≤ address ∧
        ∀ other ∈ listing.code, other.address ≤ address → other.address ≤ o.address := by
  simp only [Option.map_eq_some_iff, instructionAt?_eq_some_iff ascending]
  constructor
  · rintro ⟨i, ⟨nearest, covers⟩, rfl⟩
    refine ⟨List.mem_map_of_mem (Array.mem_toList_iff.2 nearest.among), covers, nearest.before, ?_⟩
    intro other member before
    obtain ⟨j, among, rfl⟩ := List.mem_map.1 member
    exact nearest.last j (Array.mem_toList_iff.1 among) before
  · rintro ⟨member, covers, before, last⟩
    obtain ⟨i, among, rfl⟩ := List.mem_map.1 member
    refine ⟨i, ⟨⟨Array.mem_toList_iff.1 among, before, fun other listed => ?_⟩, covers⟩, rfl⟩
    exact last other.opcode (List.mem_map_of_mem (Array.mem_toList_iff.2 listed))

theorem opcodeAt?_of_code {other : Listing} (same : listing.code = other.code) (address : UInt32) :
    (listing.instructionAt? address).map (·.opcode) =
      (other.instructionAt? address).map (·.opcode) := by
  refine Option.ext fun o => ?_
  rw [opcodeAt?_eq_some_iff ascending, opcodeAt?_eq_some_iff (same ▸ ascending), same]

end

end SourceScope.Listing
