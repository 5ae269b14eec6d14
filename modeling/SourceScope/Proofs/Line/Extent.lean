import SourceScope.Listing.Build
import SourceScope.Proofs.Order.PartitionPoint
import SourceScope.Proofs.Order.Sorted

set_option autoImplicit false

namespace SourceScope

namespace Listing

theorem mem_symbolStarts (symbols : List Symbol) (address : UInt32) :
    address ∈ symbolStarts symbols ↔ ∃ s ∈ symbols, s.address = address := by
  simp [symbolStarts, mem_eraseReps]

theorem symbolStarts_ascending (symbols : List Symbol) :
    (symbolStarts symbols).toList.Pairwise (· ≤ ·) := by
  have sorted := mergeSort_ascending id (symbols.map (·.address))
  exact sorted.sublist (eraseReps_sublist _)

theorem symbolStarts_le (symbols : List Symbol) {m n : Nat} {a b : UInt32} (le : m ≤ n)
    (first : (symbolStarts symbols)[m]? = some a) (second : (symbolStarts symbols)[n]? = some b) :
    a ≤ b := by
  rcases Nat.eq_or_lt_of_le le with rfl | less
  · rw [Option.some.inj (first.symm.trans second)]
    exact UInt32.le_refl _
  · rw [← Array.getElem?_toList] at first second
    obtain ⟨mBound, rfl⟩ := List.getElem?_eq_some_iff.1 first
    obtain ⟨nBound, rfl⟩ := List.getElem?_eq_some_iff.1 second
    exact List.pairwise_iff_getElem.1 (symbolStarts_ascending symbols) m n mBound nBound less

theorem symbolStarts_partitioned (symbols : List Symbol) (address : UInt32) :
    Partitioned (fun start => decide (start ≤ address)) (symbolStarts symbols) := by
  refine Partitioned.of_pairwise (symbolStarts_ascending symbols) fun a b le below => ?_
  rw [decide_eq_true_iff] at below ⊢
  exact UInt32.le_trans le below

end Listing

namespace LineRow

def followed : List LineRow → List (LineRow × Option LineRow)
  | [] => []
  | row :: rest => (row, rest.head?) :: followed rest

def Clear (symbols : List Symbol) (start address : UInt32) : Prop :=
  ∀ s ∈ symbols, start < s.address → address < s.address

structure Begins (row : LineRow) (address : UInt32) : Prop where
  isCode : row.endsSequence = false
  numbered : row.line ≠ 0
  start : row.address ≤ address

/-- What a row describes: the code before the next row. The last row of a sequence describes none of
the function after its own. -/
structure Covers (row : LineRow) (symbols : List Symbol) (next : LineRow) (address : UInt32) : Prop
    extends Begins row address where
  stop : address < next.address
  clear : next.endsSequence = true → Clear symbols row.address address

/-- The last row of a sequence has `least` bytes at any rate. That of a table that breaks off goes on
to the next function symbol. -/
structure Padded (row : LineRow) (symbols : List Symbol) (least : UInt32) (next : Option LineRow)
    (address : UInt32) : Prop extends Begins row address where
  last : ∀ after, next = some after → after.endsSequence = true
  reach : address < LineExtent.saturatingAdd row.address least ∨
    next = none ∧ (∃ s ∈ symbols, row.address < s.address) ∧ Clear symbols row.address address

def Claims (row : LineRow) (symbols : List Symbol) (least : UInt32) (next : Option LineRow)
    (address : UInt32) : Prop :=
  (∃ after, next = some after ∧ row.Covers symbols after address) ∨
    row.Padded symbols least next address

variable {symbols : List Symbol} {least : UInt32} {row : LineRow} {next : Option LineRow}
  {address : UInt32}

theorem Claims.begins (claims : row.Claims symbols least next address) : row.Begins address := by
  rcases claims with ⟨_, -, covers⟩ | padded
  · exact covers.toBegins
  · exact padded.toBegins

end LineRow

namespace LineExtent

theorem lt_max_iff (a b c : UInt32) : a < max b c ↔ a < b ∨ a < c := by
  have unfolded : max b c = if b ≤ c then c else b := rfl
  rw [unfolded]
  simp only [UInt32.lt_iff_toNat_lt, UInt32.le_iff_toNat_le]
  split <;> omega

theorem lt_min_iff (a b c : UInt32) : a < min b c ↔ a < b ∧ a < c := by
  have unfolded : min b c = if b ≤ c then b else c := rfl
  rw [unfolded]
  simp only [UInt32.lt_iff_toNat_lt, UInt32.le_iff_toNat_le]
  split <;> omega

def holds (extent : LineExtent) (address : UInt32) : Bool :=
  extent.start ≤ address && address < extent.stop

section

variable (symbols : List Symbol) (least : UInt32) (row : LineRow) (next : Option LineRow)
  (address : UInt32)

theorem nextStart_eq_some {start next : UInt32}
    (found : (Listing.symbolStarts symbols)[partitionPoint (· ≤ start)
      (Listing.symbolStarts symbols)]? = some next) :
    (∃ s ∈ symbols, s.address = next) ∧ start < next ∧
      ∀ s ∈ symbols, start < s.address → next ≤ s.address := by
  have split := fun (n : Nat) (a : UInt32) =>
    @lt_partitionPoint_iff _ _ _ (Listing.symbolStarts_partitioned symbols start) n a
  simp only [decide_eq_true_eq] at split
  refine ⟨(Listing.mem_symbolStarts symbols next).1 (Array.mem_of_getElem? found), ?_, ?_⟩
  · have past := mt (split _ next found).2 (Nat.lt_irrefl _)
    exact UInt32.not_le.1 past
  · intro s member later
    have among := (Listing.mem_symbolStarts symbols s.address).2 ⟨s, member, rfl⟩
    obtain ⟨n, bound, same⟩ := Array.mem_iff_getElem.1 among
    have atN := Array.getElem?_eq_some_iff.2 ⟨bound, same⟩
    have behind : ¬ n < partitionPoint (· ≤ start) (Listing.symbolStarts symbols) := by
      intro before
      exact UInt32.not_le.2 later ((split n _ atN).1 before)
    exact Listing.symbolStarts_le symbols (Nat.not_lt.1 behind) found atN

theorem clear_iff_lt_nextStart {start next : UInt32}
    (found : (Listing.symbolStarts symbols)[partitionPoint (· ≤ start)
      (Listing.symbolStarts symbols)]? = some next) :
    LineRow.Clear symbols start address ↔ address < next := by
  obtain ⟨⟨s, member, rfl⟩, past, nearest⟩ := nextStart_eq_some symbols found
  constructor
  · intro clear
    exact clear s member past
  · intro less other among later
    exact Std.lt_of_lt_of_le less (nearest other among later)

theorem nextStart_eq_none {start : UInt32}
    (missing : (Listing.symbolStarts symbols)[partitionPoint (· ≤ start)
      (Listing.symbolStarts symbols)]? = none) :
    ∀ s ∈ symbols, s.address ≤ start := by
  intro s member
  have among := (Listing.mem_symbolStarts symbols s.address).2 ⟨s, member, rfl⟩
  obtain ⟨n, bound, same⟩ := Array.mem_iff_getElem.1 among
  have before : n < partitionPoint (· ≤ start) (Listing.symbolStarts symbols) :=
    Nat.lt_of_lt_of_le bound (Array.getElem?_eq_none_iff.1 missing)
  have below := (lt_partitionPoint_iff (Listing.symbolStarts_partitioned symbols start)
    (Array.getElem?_eq_some_iff.2 ⟨bound, same⟩)).1 before
  simpa using below

theorem lt_lastStop_iff (start stop : UInt32) :
    address < lastStop (Listing.symbolStarts symbols) least start (some stop) ↔
      (address < stop ∧ LineRow.Clear symbols start address) ∨
        address < saturatingAdd start least := by
  unfold lastStop
  cases found : (Listing.symbolStarts symbols)[partitionPoint (· ≤ start)
    (Listing.symbolStarts symbols)]? with
  | none =>
    have clear : LineRow.Clear symbols start address := by
      intro s member later
      exact absurd later (UInt32.not_lt.2 (nextStart_eq_none symbols found s member))
    simp [lt_max_iff, clear]
  | some next =>
    simp [lt_max_iff, lt_min_iff, clear_iff_lt_nextStart symbols address found]

theorem lt_lastStop_none_iff (start : UInt32) :
    address < lastStop (Listing.symbolStarts symbols) least start none ↔
      ((∃ s ∈ symbols, start < s.address) ∧ LineRow.Clear symbols start address) ∨
        address < saturatingAdd start least := by
  unfold lastStop
  cases found : (Listing.symbolStarts symbols)[partitionPoint (· ≤ start)
    (Listing.symbolStarts symbols)]? with
  | none =>
    have last : ¬ ∃ s ∈ symbols, start < s.address := by
      rintro ⟨s, member, later⟩
      exact UInt32.not_lt.2 (nextStart_eq_none symbols found s member) later
    simp [lt_max_iff, last]
  | some next =>
    obtain ⟨⟨s, member, same⟩, past, -⟩ := nextStart_eq_some symbols found
    have later : ∃ s ∈ symbols, start < s.address := ⟨s, member, same ▸ past⟩
    simp [lt_max_iff, clear_iff_lt_nextStart symbols address found, later]

theorem lt_stopOf_iff (begins : row.Begins address) :
    address < stopOf (Listing.symbolStarts symbols) least row next ↔
      row.Claims symbols least next address := by
  unfold stopOf
  cases next with
  | none =>
    simp only [lt_lastStop_none_iff]
    constructor
    · intro reach
      exact Or.inr ⟨begins, by simp, by simpa using reach.symm⟩
    · rintro (⟨after, missing, -⟩ | padded)
      · cases missing
      · simpa using padded.reach.symm
  | some after =>
    by_cases last : after.endsSequence = true
    · simp only [last, if_true, lt_lastStop_iff]
      constructor
      · rintro (⟨before, clear⟩ | padding)
        · exact Or.inl ⟨after, rfl, begins, before, fun _ => clear⟩
        · exact Or.inr ⟨begins, by simpa using last, Or.inl padding⟩
      · rintro (⟨_, same, covers⟩ | padded)
        · obtain rfl := Option.some.inj same
          exact Or.inl ⟨covers.stop, covers.clear last⟩
        · exact Or.inr (by simpa using padded.reach)
    · simp only [last, Bool.false_eq_true, if_false]
      constructor
      · intro before
        exact Or.inl ⟨after, rfl, begins, before, fun ends => absurd ends last⟩
      · rintro (⟨_, same, covers⟩ | padded)
        · obtain rfl := Option.some.inj same
          exact covers.stop
        · exact absurd (padded.last after rfl) last

theorem ofRow?_holds_iff :
    (ofRow? (Listing.symbolStarts symbols) least row next).any (·.holds address) = true ↔
      row.Claims symbols least next address := by
  rw [ofRow?]
  by_cases begins : row.Begins address
  · rw [← lt_stopOf_iff symbols least row next address begins]
    obtain ⟨isCode, numbered, start⟩ := begins
    simp only [isCode, beq_false_of_ne numbered, Bool.or_false, Bool.false_eq_true, if_false]
    constructor
    · intro held
      split at held
      next => simpa [holds, start] using held
      next => cases held
    · intro before
      rw [if_pos (Std.lt_of_le_of_lt start before)]
      simpa [holds, start] using before
  · refine iff_of_false ?_ (mt LineRow.Claims.begins begins)
    intro held
    simp only [Option.any_eq_true, Option.ite_none_left_eq_some, Option.ite_none_right_eq_some,
      Option.some.injEq, Bool.or_eq_true, beq_iff_eq, not_or] at held
    obtain ⟨extent, ⟨⟨isCode, numbered⟩, -, rfl⟩, within⟩ := held
    simp only [holds, Bool.and_eq_true, decide_eq_true_eq] at within
    exact begins ⟨by simpa using isCode, numbered, within.1⟩

theorem ofRow?_place {starts : Array UInt32} {extent : LineExtent}
    (made : ofRow? starts least row next = some extent) :
    extent.file = row.file ∧ extent.line = row.line := by
  simp only [ofRow?, Option.ite_none_left_eq_some, Option.ite_none_right_eq_some,
    Option.some.injEq] at made
  obtain ⟨-, -, rfl⟩ := made
  exact ⟨rfl, rfl⟩

theorem ofRows_eq_filterMap (starts : Array UInt32) (rows : List LineRow) :
    ofRows starts least rows =
      (LineRow.followed rows).filterMap fun pair => ofRow? starts least pair.1 pair.2 := by
  induction rows with
  | nil => rfl
  | cons row rest ih =>
    cases made : ofRow? starts least row rest.head? <;>
      simp [ofRows, LineRow.followed, made, ih]

theorem find?_holds {rows : List (LineRow × Option LineRow)} (member : (row, next) ∈ rows)
    (claims : row.Claims symbols least next address) :
    ∃ before q after rest extent, rows = before ++ (q, after) :: rest ∧
      (∀ earlier ∈ before, ¬ earlier.1.Claims symbols least earlier.2 address) ∧
      q.Claims symbols least after address ∧ extent.file = q.file ∧ extent.line = q.line ∧
      (rows.filterMap fun pair => ofRow? (Listing.symbolStarts symbols) least pair.1 pair.2).find?
        (·.holds address) = some extent := by
  have holds := fun (pair : LineRow × Option LineRow) =>
    ofRow?_holds_iff symbols least pair.1 pair.2 address
  have some : (rows.find? fun pair => (ofRow? (Listing.symbolStarts symbols) least pair.1
      pair.2).any (·.holds address)).isSome :=
    List.find?_isSome.2 ⟨(row, next), member, (holds (row, next)).2 claims⟩
  obtain ⟨pair, found⟩ := Option.isSome_iff_exists.1 some
  obtain ⟨claimed, before, rest, split, earlier⟩ := List.find?_eq_some_iff_append.1 found
  obtain ⟨extent, made, -⟩ := (Option.any_eq_true _ _).1 claimed
  obtain ⟨file, line⟩ := ofRow?_place least pair.1 pair.2 made
  refine ⟨before, pair.1, pair.2, rest, extent, split, ?_, (holds pair).1 claimed, file, line, ?_⟩
  · intro other among claims
    have misses := earlier other among
    simp [(holds other).2 claims] at misses
  · simp [List.find?_filterMap, found, made]

end

end LineExtent

end SourceScope
