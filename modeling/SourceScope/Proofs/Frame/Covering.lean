import SourceScope.Proofs.Frame.Sequence
import SourceScope.Proofs.Order.PartitionPoint
import SourceScope.Proofs.Sample

set_option autoImplicit false

namespace SourceScope

namespace Frame

def Description.Covers (d : Description) (pc : UInt32) : Prop :=
  d.start.toNat ≤ pc.toNat ∧ pc.toNat < d.start.toNat + d.length.toNat

instance (d : Description) (pc : UInt32) : Decidable (d.Covers pc) :=
  inferInstanceAs (Decidable (_ ∧ _))

def Entry.description? : Entry → Option Description
  | description d => some d
  | common _ => none

theorem mem_filterMap_description? {found : List Entry} {d : Description} :
    d ∈ found.filterMap Entry.description? ↔ Entry.description d ∈ found := by
  rw [List.mem_filterMap]
  constructor
  · rintro ⟨e, member, same⟩
    cases e with
    | common => cases same
    | description => exact Option.some.inj same ▸ member
  · exact fun member => ⟨_, member, rfl⟩

/-- Of the descriptions that cover an address, none starts behind `d`, and none that is listed
behind `d` starts where `d` does. -/
def Closest (listed : List Description) (pc : UInt32) (d : Description) : Prop :=
  ∃ before after, listed = before ++ d :: after ∧ d.Covers pc ∧
    (∀ e ∈ before, e.Covers pc → e.start ≤ d.start) ∧ ∀ e ∈ after, e.Covers pc → e.start < d.start

theorem Description.contains_iff (d : Description) (pc : UInt32) :
    d.contains pc = true ↔ d.Covers pc := by
  unfold contains Covers
  rw [Bool.and_eq_true, decide_eq_true_eq, decide_eq_true_eq, UInt32.le_iff_toNat_le]
  refine and_congr_right fun starts => ?_
  rw [UInt32.lt_iff_toNat_lt, UInt32.toNat_sub_of_le _ _ (UInt32.le_iff_toNat_le.2 starts)]
  omega

section

variable {listed sorted : List Description} {pc : UInt32} {d : Description}

theorem eq_of_split {other : Description} {between after after' : List Description}
    (same : d :: after = between ++ other :: after') (covers : d.Covers pc)
    (covers' : other.Covers pc) (noLater : ∀ e ∈ between, e.Covers pc → e.start ≤ other.start)
    (earlier : ∀ e ∈ after, e.Covers pc → e.start < d.start) : d = other := by
  cases between with
  | nil => exact (List.cons.inj same).1
  | cons first between =>
    obtain ⟨rfl, rfl⟩ := List.cons.inj same
    have below := earlier other (by simp) covers'
    exact absurd (noLater d List.mem_cons_self covers) (UInt32.not_le.2 below)

theorem Closest.unique {other : Description} (closest : Closest listed pc d)
    (closest' : Closest listed pc other) : d = other := by
  obtain ⟨before, after, rfl, covers, noLater, earlier⟩ := closest
  obtain ⟨before', after', same, covers', noLater', earlier'⟩ := closest'
  rcases List.append_eq_append_iff.1 same with ⟨between, rfl, tails⟩ | ⟨between, rfl, tails⟩
  · exact eq_of_split tails covers covers'
      (fun e member => noLater' e (List.mem_append_right _ member)) earlier
  · exact (eq_of_split tails covers' covers
      (fun e member => noLater e (List.mem_append_right _ member)) earlier').symm

theorem find?_reverse_eq_some (found : sorted.reverse.find? (·.contains pc) = some d) :
    ∃ before after, sorted = before ++ d :: after ∧ d.Covers pc ∧ ∀ e ∈ after, ¬e.Covers pc := by
  obtain ⟨covers, after, before, split, uncovered⟩ := List.find?_eq_some_iff_append.1 found
  rw [List.reverse_eq_append_iff, List.reverse_cons, List.append_assoc] at split
  refine ⟨before.reverse, after.reverse, split, (d.contains_iff pc).1 covers, fun e member => ?_⟩
  have outside := uncovered e (List.mem_reverse.1 member)
  rw [← e.contains_iff]
  simpa using outside

theorem Closest.of_sorted (stable : StablySorted Description.start listed sorted)
    (found : sorted.reverse.find? (·.contains pc) = some d) : Closest listed pc d := by
  obtain ⟨front, back, split, covers, uncovered⟩ := find?_reverse_eq_some found
  have ascending := stable.ascending
  rw [split, List.pairwise_append] at ascending
  have highest (e : Description) (member : e ∈ listed) (covered : e.Covers pc) :
      e.start ≤ d.start := by
    have among := stable.perm.mem_iff.2 member
    rw [split, List.mem_append, List.mem_cons] at among
    rcases among with before | rfl | behind
    · exact ascending.2.2 e before d List.mem_cons_self
    · exact UInt32.le_refl _
    · exact absurd covered (uncovered e behind)
  -- of those that start where `d` does, the same ones stand behind `d` before and after sorting
  have alike := stable.stable d.start
  rw [split, List.filter_append, List.filter_cons, if_pos (beq_self_eq_true d.start)] at alike
  obtain ⟨first, second, rfl, -, rest⟩ := List.filter_eq_append_iff.1 alike.symm
  obtain ⟨middle, after, rfl, -, -, later⟩ := List.filter_eq_cons_iff.1 rest
  refine ⟨first ++ middle, after, (List.append_assoc _ _ _).symm, covers, ?_, ?_⟩
  · intro e member
    exact highest e (List.append_assoc first _ _ ▸ List.mem_append_left _ member)
  · intro e member covered
    refine UInt32.lt_of_le_of_ne (highest e (by simp [member]) covered) fun same => ?_
    have tied : e ∈ after.filter (·.start == d.start) :=
      List.mem_filter.2 ⟨member, beq_iff_eq.2 same⟩
    rw [later] at tied
    exact uncovered e (List.mem_of_mem_filter tied) covered

end

end Frame

namespace FrameSection

open SourceScope.Frame

section

variable {order : ByteOrder} {data : List UInt8} {table : FrameSection} {pc : UInt32}

def bisected? (table : FrameSection) (pc : UInt32) : Option Description :=
  let ahead := partitionPoint (·.start ≤ pc) table.descriptions.toArray
  (table.descriptions.take ahead).reverse.find? (·.contains pc)

theorem partitioned_starts (ascending : table.descriptions.Pairwise fun a b => a.start ≤ b.start) :
    Partitioned (fun d : Description => d.start ≤ pc) table.descriptions.toArray :=
  .of_pairwise ascending fun _ _ starts below =>
    decide_eq_true (UInt32.le_trans starts (of_decide_eq_true below))

theorem covering?_eq_bisected? (ascending : table.descriptions.Pairwise fun a b => a.start ≤ b.start) :
    table.covering? pc = table.bisected? pc := by
  have ahead := takeWhile_eq_take_partitionPoint (@partitioned_starts table pc ascending)
  exact congrArg (fun items : List Description => items.reverse.find? (·.contains pc)) ahead

theorem covering?_eq_find? (ascending : table.descriptions.Pairwise fun a b => a.start ≤ b.start) :
    table.covering? pc = table.descriptions.reverse.find? (·.contains pc) := by
  rw [covering?_eq_bisected? ascending]
  unfold bisected?
  have behind : (table.descriptions.drop
      (partitionPoint (·.start ≤ pc) table.descriptions.toArray)).reverse.find?
        (·.contains pc) = none := by
    refine List.find?_eq_none.2 fun d member covers => ?_
    have past := not_below_of_mem_drop (partitioned_starts ascending) (List.mem_reverse.1 member)
    have starts := ((d.contains_iff pc).1 covers).1
    exact of_decide_eq_false past (UInt32.le_iff_toNat_le.2 starts)
  conv_rhs =>
    rw [← List.take_append_drop (partitionPoint (·.start ≤ pc) table.descriptions.toArray)
      table.descriptions]
  rw [List.reverse_append, List.find?_append, behind, Option.none_or]

theorem parse_sorted (parsed : parse order data = .ok table) :
    ∃ found, Frame.entries order 0 data = .ok found ∧
      StablySorted Description.start (found.filterMap Frame.Entry.description?)
        table.descriptions := by
  unfold parse at parsed
  split at parsed
  next => cases parsed
  next found read =>
    simp only [ofEntries] at parsed
    split at parsed
    next => cases parsed
    next =>
      cases parsed
      refine ⟨found, read, ?_⟩
      have same : found.filterMap Frame.Entry.description? = found.filterMap _ :=
        List.filterMap_congr fun e _ => by cases e <;> rfl
      exact same ▸ stablySorted_mergeSort Description.start _

/-- An address that no description covers is looked up to none, and any other to the description
that is closest to it. -/
theorem covering?_closest (parsed : parse order data = .ok table) (pc : UInt32) :
    ∃ found, Frame.entries order 0 data = .ok found ∧
      table.covering? pc = table.bisected? pc ∧
      (table.covering? pc = none ↔
        ∀ d, Frame.Entry.description d ∈ found → ¬d.Covers pc) ∧
      ∀ d, table.covering? pc = some d ↔
        Closest (found.filterMap Frame.Entry.description?) pc d := by
  obtain ⟨found, read, stable⟩ := parse_sorted parsed
  have last := @covering?_eq_find? table pc stable.ascending
  have chosen (d : Description) (looked : table.covering? pc = some d) :
      Closest (found.filterMap Frame.Entry.description?) pc d :=
    .of_sorted stable (last ▸ looked)
  have listed (d : Description) :
      d ∈ table.descriptions ↔ Frame.Entry.description d ∈ found := by
    rw [stable.perm.mem_iff, mem_filterMap_description?]
  have absent : table.covering? pc = none ↔
      ∀ d, Frame.Entry.description d ∈ found → ¬d.Covers pc := by
    rw [last, List.find?_eq_none]
    simp only [List.mem_reverse, listed, Description.contains_iff]
  refine ⟨found, read, covering?_eq_bisected? stable.ascending, absent, fun d => ⟨chosen d, ?_⟩⟩
  intro closest
  cases looked : table.covering? pc with
  | none =>
    obtain ⟨before, after, split, covers, -⟩ := closest
    have member : d ∈ table.descriptions := stable.perm.mem_iff.2 (by simp [split])
    exact absurd covers (absent.1 looked d ((listed d).1 member))
  | some other => rw [(chosen other looked).unique closest]

end

open Sample in
def nestedBytes : List UInt8 :=
  -- the last one goes past the end of the address space
  sized (word 0xffffffff ++ [1, 0, 1, 0x7c, 14]) ++
    [(0x100, 0x100), (0x140, 16), (0x148, 0), (0x140, 32), (0xfffffff0, 32)].flatMap
      fun (start, length) => sized (word 0 ++ word start ++ word length)

def nestedEntries : List Frame.Entry :=
  [.common ⟨0, 1, -4, 14, []⟩, .description ⟨13, 0, 0x100, 0x100, []⟩,
    .description ⟨29, 0, 0x140, 16, []⟩, .description ⟨45, 0, 0x148, 0, []⟩,
    .description ⟨61, 0, 0x140, 32, []⟩, .description ⟨77, 0, 0xfffffff0, 32, []⟩]

theorem covering?_closest_nested : ∃ table, parse .little nestedBytes = .ok table ∧
    table.covering? 0x148 = some ⟨61, 0, 0x140, 32, []⟩ ∧ table.covering? 8 = none := by
  have read : Frame.entries .little 0 nestedBytes = .ok nestedEntries := by cbv
  have parsed : ∃ table, parse .little nestedBytes = .ok table := by
    unfold parse
    rw [read]
    exact ⟨_, rfl⟩
  obtain ⟨table, parsed⟩ := parsed
  refine ⟨table, parsed, ?_, ?_⟩
  · obtain ⟨found, same, -, -, chosen⟩ := covering?_closest parsed 0x148
    cases same.symm.trans read
    refine (chosen _).2 ⟨[⟨13, 0, 0x100, 0x100, []⟩, ⟨29, 0, 0x140, 16, []⟩, ⟨45, 0, 0x148, 0, []⟩],
      [⟨77, 0, 0xfffffff0, 32, []⟩], rfl, by decide, by decide, by decide⟩
  · obtain ⟨found, same, -, absent, -⟩ := covering?_closest parsed 8
    cases same.symm.trans read
    have outside : ∀ d ∈ nestedEntries.filterMap Frame.Entry.description?, ¬d.Covers 8 := by decide
    exact absent.2 fun d member => outside d (mem_filterMap_description?.2 member)

end FrameSection

end SourceScope
