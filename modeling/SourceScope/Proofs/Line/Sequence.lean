import Mathlib.Data.List.SplitBy
import SourceScope.Proofs.Line.Extent

set_option autoImplicit false

namespace SourceScope

namespace LineRow

def sequences (rows : List LineRow) : List (List LineRow) :=
  rows.splitBy fun row _ => !row.endsSequence

def Unbroken (rows : List LineRow) : Prop := rows.IsChain fun row _ => row.endsSequence = false

def limits (starts : Array UInt32) (row : LineRow) (after : List LineRow) : List UInt32 :=
  after.map (·.address) ++ starts.toList.filter (row.address < ·)

theorem unbroken_of_mem_sequences {rows sequence : List LineRow}
    (member : sequence ∈ sequences rows) : Unbroken sequence := by
  have chain := List.isChain_of_mem_splitBy member
  simpa [Unbroken] using chain

theorem unbroken_tail {row next : LineRow} {rest : List LineRow}
    (unbroken : Unbroken (row :: next :: rest)) : row.endsSequence = false ∧ Unbroken (next :: rest) :=
  List.isChain_cons_cons.1 unbroken

end LineRow

namespace LineExtent

open LineRow (sequences Unbroken limits unbroken_tail)

structure Extended (starts : Array UInt32) (least : UInt32) (rows : List LineRow)
    (extents : List LineExtent) : Prop where
  nonempty : ∀ extent ∈ extents, extent.start < extent.stop
  apart : extents.Pairwise fun a b => a.stop ≤ b.start
  inner : ∀ before row next after, rows = before ++ row :: next :: after →
    row.line ≠ 0 → next.endsSequence = false →
    ∀ address, row.address ≤ address → address < next.address →
      extents.filter (·.holds address) = [⟨row.file, row.line, row.address, next.address⟩]
  -- the last row is followed by nothing but the end of its sequence
  last : ∀ before row after, rows = before ++ row :: after →
    row.line ≠ 0 → row.endsSequence = false → (∀ stop ∈ after, stop.endsSequence = true) →
    row.address.toNat + least.toNat ≤ 0xffffffff →
    ∃ stop, extents.getLast? = some ⟨row.file, row.line, row.address, stop⟩ ∧
      ∀ address, address < stop ↔ address.toNat < row.address.toNat + least.toNat ∨
        limits starts row after ≠ [] ∧ ∀ limit ∈ limits starts row after, address < limit

variable {starts : Array UInt32} {least : UInt32} {row next : LineRow} {before rest : List LineRow}

theorem ofRow?_of_endsSequence (ends : row.endsSequence = true) (next : Option LineRow) :
    ofRow? starts least row next = none := by
  simp [ofRow?, ends]

theorem ofRow?_eq_some {next : Option LineRow} {extent : LineExtent}
    (made : ofRow? starts least row next = some extent) :
    extent.start = row.address ∧ extent.stop = stopOf starts least row next ∧
      extent.start < extent.stop := by
  simp only [ofRow?, Option.ite_none_left_eq_some, Option.ite_none_right_eq_some,
    Option.some.injEq] at made
  obtain ⟨-, before, rfl⟩ := made
  exact ⟨rfl, rfl, before⟩

theorem ofRow?_of_lt {next : Option LineRow} (isCode : row.endsSequence = false)
    (numbered : row.line ≠ 0) (before : row.address < stopOf starts least row next) :
    ofRow? starts least row next =
      some ⟨row.file, row.line, row.address, stopOf starts least row next⟩ := by
  simp [ofRow?, isCode, numbered, before]

section Split

theorem ofRows_append {front : List LineRow} (ended : ∀ row ∈ front.getLast?, row.endsSequence = true)
    (back : List LineRow) :
    ofRows starts least (front ++ back) = ofRows starts least front ++ ofRows starts least back := by
  induction front with
  | nil => rfl
  | cons row rest ih =>
    cases rest with
    | nil =>
      have last : row.endsSequence = true := ended row rfl
      simp [ofRows, ofRow?_of_endsSequence last]
    | cons next more =>
      have same := ih (by simpa using ended)
      simp only [List.cons_append, ofRows, List.head?_cons, List.append_assoc] at same ⊢
      rw [same]

theorem ofRows_flatten {parts : List (List LineRow)}
    (ended : parts.IsChain fun a _ => ∀ row ∈ a.getLast?, row.endsSequence = true) :
    ofRows starts least parts.flatten = parts.flatMap (ofRows starts least) := by
  induction parts with
  | nil => rfl
  | cons first rest ih =>
    have later := ih ended.tail
    cases rest with
    | nil => simp
    | cons second more =>
      have last := (List.isChain_cons_cons.1 ended).1
      rw [List.flatten_cons, ofRows_append last, later]
      rfl

theorem ofRows_sequences (starts : Array UInt32) (least : UInt32) (rows : List LineRow) :
    ofRows starts least rows = (sequences rows).flatMap (ofRows starts least) := by
  have ended : (sequences rows).IsChain fun a _ => ∀ row ∈ a.getLast?, row.endsSequence = true := by
    refine (List.isChain_getLast_head_splitBy _ rows).imp ?_
    rintro a b ⟨some_, -, last⟩ row member
    rw [List.getLast?_eq_some_getLast some_, Option.mem_some_iff] at member
    simpa [member] using last
  rw [← ofRows_flatten ended, sequences, List.flatten_splitBy]

end Split

theorem exists_row {rows : List LineRow} {extent : LineExtent}
    (member : extent ∈ ofRows starts least rows) :
    extent.start < extent.stop ∧ ∃ row ∈ rows, extent.start = row.address := by
  induction rows with
  | nil => cases member
  | cons row rest ih =>
    rcases List.mem_append.1 member with own | later
    · obtain ⟨start, -, before⟩ := ofRow?_eq_some (Option.mem_toList.1 own)
      exact ⟨before, row, List.mem_cons_self, start⟩
    · obtain ⟨before, other, among, start⟩ := ih later
      exact ⟨before, other, List.mem_cons_of_mem _ among, start⟩

theorem ofRows_of_endsSequence (unbroken : Unbroken (row :: rest))
    (ends : row.endsSequence = true) : ofRows starts least (row :: rest) = [] := by
  cases rest with
  | nil => simp [ofRows, ofRow?_of_endsSequence ends]
  | cons next more =>
    have goesOn := (unbroken_tail unbroken).1
    rw [ends] at goesOn
    cases goesOn

theorem ofRows_pairwise {rows : List LineRow} (unbroken : Unbroken rows)
    (ascending : rows.Pairwise fun a b => a.address ≤ b.address) :
    (ofRows starts least rows).Pairwise fun a b => a.stop ≤ b.start := by
  induction rows with
  | nil => exact List.Pairwise.nil
  | cons row rest ih =>
    refine List.pairwise_append.2 ⟨?_, ih unbroken.tail ascending.tail, ?_⟩
    · cases ofRow? starts least row rest.head? <;> simp
    intro extent own other later
    cases rest with
    | nil => cases later
    | cons next more =>
      by_cases ends : next.endsSequence = true
      · rw [ofRows_of_endsSequence unbroken.tail ends] at later
        cases later
      · obtain ⟨-, stop, -⟩ := ofRow?_eq_some (Option.mem_toList.1 own)
        obtain ⟨-, source, among, start⟩ := exists_row later
        simp only [List.head?_cons, stopOf, ends, Bool.false_eq_true, if_false] at stop
        rw [stop, start]
        rcases List.mem_cons.1 among with rfl | behind
        · exact UInt32.le_refl _
        · exact (List.pairwise_cons.1 ascending.tail).1 source behind

theorem filter_holds {extents : List LineExtent}
    (apart : extents.Pairwise fun a b => a.stop ≤ b.start) {extent : LineExtent}
    (member : extent ∈ extents) {address : UInt32} (holds : extent.holds address = true) :
    extents.filter (·.holds address) = [extent] := by
  have within (e : LineExtent) : e.holds address = true ↔ e.start ≤ address ∧ address < e.stop := by
    simp [LineExtent.holds]
  obtain ⟨before, after, rfl⟩ := List.append_of_mem member
  obtain ⟨-, rest, cross⟩ := List.pairwise_append.1 apart
  have front : before.filter (·.holds address) = [] := by
    refine List.filter_eq_nil_iff.2 fun other earlier held => ?_
    have stop := cross other earlier extent List.mem_cons_self
    exact UInt32.not_lt.2 (UInt32.le_trans stop ((within _).1 holds).1) ((within _).1 held).2
  have back : after.filter (·.holds address) = [] := by
    refine List.filter_eq_nil_iff.2 fun other later held => ?_
    have start := (List.pairwise_cons.1 rest).1 other later
    exact UInt32.not_lt.2 (UInt32.le_trans start ((within _).1 held).1) ((within _).1 holds).2
  simp [front, back, holds]

theorem ofRows_split (starts : Array UInt32) (least : UInt32) (before : List LineRow) (row : LineRow)
    (rest : List LineRow) :
    ∃ front, ofRows starts least (before ++ row :: rest) =
      front ++ (ofRow? starts least row rest.head?).toList ++ ofRows starts least rest := by
  induction before with
  | nil => exact ⟨[], rfl⟩
  | cons first more ih =>
    obtain ⟨front, same⟩ := ih
    refine ⟨(ofRow? starts least first (more ++ row :: rest).head?).toList ++ front, ?_⟩
    rw [List.cons_append, ofRows, same]
    simp

section Last

theorem symbols_partitioned (sorted : starts.toList.Pairwise (· ≤ ·)) (start : UInt32) :
    Partitioned (fun symbol => decide (symbol ≤ start)) starts := by
  refine Partitioned.of_pairwise sorted fun a b le below => ?_
  rw [decide_eq_true_iff] at below ⊢
  exact UInt32.le_trans le below

theorem nextSymbol_eq (sorted : starts.toList.Pairwise (· ≤ ·)) (start : UInt32) :
    starts[partitionPoint (· ≤ start) starts]? =
      (starts.toList.filter (start < ·)).head? := by
  have past : (fun symbol => !decide (symbol ≤ start)) = fun symbol => decide (start < symbol) := by
    funext symbol
    rw [← decide_not, decide_eq_decide, UInt32.not_le]
  rw [getElem?_partitionPoint (symbols_partitioned sorted start), past, List.head?_filter]

theorem lt_lastStop_iff_limits (sorted : starts.toList.Pairwise (· ≤ ·)) (start address : UInt32)
    (sequenceEnd : Option UInt32) :
    address < lastStop starts least start sequenceEnd ↔
      address < saturatingAdd start least ∨
        sequenceEnd.toList ++ starts.toList.filter (start < ·) ≠ [] ∧
          ∀ limit ∈ sequenceEnd.toList ++ starts.toList.filter (start < ·), address < limit := by
  have ascending := sorted.filter (start < ·)
  unfold lastStop
  rw [nextSymbol_eq sorted]
  generalize starts.toList.filter (start < ·) = symbols at ascending
  cases symbols with
  | nil => cases sequenceEnd <;> simp [lt_max_iff, or_comm]
  | cons first rest =>
    -- the symbols behind the first one are met later
    have nearest : (∀ symbol ∈ first :: rest, address < symbol) ↔ address < first := by
      refine ⟨fun all => all first List.mem_cons_self, fun below => List.forall_mem_cons.2 ⟨below, ?_⟩⟩
      exact fun symbol member =>
        Std.lt_of_lt_of_le below ((List.pairwise_cons.1 ascending).1 symbol member)
    simp only [List.forall_mem_append, nearest]
    cases sequenceEnd <;> simp [lt_max_iff, lt_min_iff, or_comm]

theorem lt_saturatingAdd_iff {a b : UInt32} (fits : a.toNat + b.toNat ≤ 0xffffffff)
    (address : UInt32) : address < saturatingAdd a b ↔ address.toNat < a.toNat + b.toNat := by
  have small : a.toNat + b.toNat < UInt32.size := Nat.lt_succ_of_le fits
  rw [saturatingAdd, if_pos small, UInt32.lt_iff_toNat_lt, UInt32.toNat_add, Nat.mod_eq_of_lt small]

theorem lt_stopOf_iff_limits (sorted : starts.toList.Pairwise (· ≤ ·)) {after : List LineRow}
    (unbroken : Unbroken (row :: after)) (ends : ∀ stop ∈ after, stop.endsSequence = true)
    (fits : row.address.toNat + least.toNat ≤ 0xffffffff) (address : UInt32) :
    address < stopOf starts least row after.head? ↔
      address.toNat < row.address.toNat + least.toNat ∨
        limits starts row after ≠ [] ∧ ∀ limit ∈ limits starts row after, address < limit := by
  have reach (sequenceEnd : Option UInt32) :
      address < lastStop starts least row.address sequenceEnd ↔ _ :=
    lt_lastStop_iff_limits sorted row.address address sequenceEnd
  simp only [lt_saturatingAdd_iff fits] at reach
  cases after with
  | nil => exact reach none
  | cons stop more =>
    have last : stop.endsSequence = true := ends stop List.mem_cons_self
    cases more with
    | nil =>
      rw [List.head?_cons, stopOf, if_pos last]
      exact reach (some stop.address)
    | cons next rest =>
      have goesOn := (unbroken_tail unbroken.tail).1
      rw [last] at goesOn
      cases goesOn

end Last

theorem extended_ofRows (sorted : starts.toList.Pairwise (· ≤ ·)) (positive : 0 < least)
    {rows : List LineRow} (unbroken : Unbroken rows)
    (ascending : rows.Pairwise fun a b => a.address ≤ b.address) :
    Extended starts least rows (ofRows starts least rows) := by
  have apart : (ofRows starts least rows).Pairwise fun a b => a.stop ≤ b.start :=
    ofRows_pairwise unbroken ascending
  refine ⟨fun extent member => (exists_row member).1, apart, ?_, ?_⟩
  · rintro before row next after rfl numbered isCode address first past
    have goesOn : row.endsSequence = false := (unbroken_tail unbroken.right_of_append).1
    have stop : stopOf starts least row (some next) = next.address := by simp [stopOf, isCode]
    have made : ofRow? starts least row (some next) = _ :=
      ofRow?_of_lt goesOn numbered (by rw [stop]; exact Std.lt_of_le_of_lt first past)
    rw [stop] at made
    obtain ⟨front, split⟩ := ofRows_split starts least before row (next :: after)
    refine filter_holds apart ?_ (by simp [holds, first, past])
    simp [split, made]
  · rintro before row after rfl numbered isCode ends fits
    have reach := lt_stopOf_iff_limits sorted unbroken.right_of_append ends fits
    have made := ofRow?_of_lt isCode numbered ((reach row.address).2 (.inl (by
      have := UInt32.lt_iff_toNat_lt.1 positive
      simpa using this)))
    obtain ⟨front, split⟩ := ofRows_split starts least before row after
    have rest : ofRows starts least after = [] := by
      cases after with
      | nil => rfl
      | cons stop more =>
        exact ofRows_of_endsSequence unbroken.right_of_append.tail (ends stop List.mem_cons_self)
    exact ⟨_, by simp [split, made, rest], reach⟩

/-- Where addresses ascend within each sequence, its extents are what its own rows and the symbols
make them, whatever other sequences the table has. -/
theorem sequences_extended {starts : Array UInt32} (sorted : starts.toList.Pairwise (· ≤ ·))
    {least : UInt32} (positive : 0 < least) {rows : List LineRow}
    (ascending : ∀ sequence ∈ sequences rows, sequence.Pairwise fun a b => a.address ≤ b.address) :
    (sequences rows).flatten = rows ∧
    ofRows starts least rows = (sequences rows).flatMap (ofRows starts least) ∧
    ∀ sequence ∈ sequences rows, Extended starts least sequence (ofRows starts least sequence) := by
  refine ⟨List.flatten_splitBy _ rows, ofRows_sequences starts least rows, ?_⟩
  intro sequence member
  exact extended_ofRows sorted positive (LineRow.unbroken_of_mem_sequences member)
    (ascending sequence member)

def twoSequences : List LineRow := [
  ⟨0x100, "a.c", 1, false⟩, ⟨0x104, "a.c", 0, false⟩, ⟨0x108, "a.c", 3, false⟩,
  ⟨0x108, "a.c", 4, false⟩, ⟨0x120, "a.c", 4, true⟩, ⟨0x80, "b.c", 7, false⟩]

example : ofRows #[0x100, 0x110] 4 twoSequences =
    [⟨"a.c", 1, 0x100, 0x104⟩, ⟨"a.c", 4, 0x108, 0x110⟩, ⟨"b.c", 7, 0x80, 0x100⟩] := by cbv

theorem sequences_extended_twoSequences :
    sequences twoSequences = [twoSequences.take 5, twoSequences.drop 5] ∧
    ofRows #[0x100, 0x110] 4 twoSequences =
      ofRows #[0x100, 0x110] 4 (twoSequences.take 5) ++
        ofRows #[0x100, 0x110] 4 (twoSequences.drop 5) ∧
    Extended #[0x100, 0x110] 4 (twoSequences.take 5)
      (ofRows #[0x100, 0x110] 4 (twoSequences.take 5)) := by
  have split : sequences twoSequences = [twoSequences.take 5, twoSequences.drop 5] := by rfl
  have ascending : ∀ sequence ∈ sequences twoSequences,
      sequence.Pairwise fun a b => a.address ≤ b.address := by
    rw [split]
    decide
  obtain ⟨-, parts, extended⟩ : _ ∧ ofRows #[0x100, 0x110] 4 twoSequences = _ ∧ _ :=
    sequences_extended (by decide) (by decide) ascending
  rw [split] at parts extended
  exact ⟨split, by simpa using parts, extended _ List.mem_cons_self⟩

end LineExtent

end SourceScope
