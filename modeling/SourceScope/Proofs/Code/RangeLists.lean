import SourceScope.Code.RangeList
import SourceScope.Proofs.Bytes.Reader
import SourceScope.Proofs.Code.ListItems
import SourceScope.Proofs.Code.Range

set_option autoImplicit false

namespace SourceScope

def ListItem.Interval.Fits (base : UInt32) (span : ListItem.Interval) : Prop :=
  base.toNat + span.start.toNat ≤ 0xffffffff ∧ base.toNat + span.stop.toNat ≤ 0xffffffff

namespace RangeList

variable {A : Type}

def bytes (order : ByteOrder) (items : List (ListItem A)) : List UInt8 :=
  ListItem.listBytes order (fun _ => []) items

def rangesOf (base : UInt32) (items : List (ListItem A)) : List CodeRange :=
  (ListItem.based base items).filterMap fun (base, span, _) =>
    CodeRange.ofHalfOpen? (base + span.start) (base + span.stop)

def plainRanges (base : UInt32) (items : List (ListItem A)) : List CodeRange :=
  (ListItem.based base items).filterMap fun (base, span, _) =>
    if span.start < span.stop then
      some {
        first := .ofNat (base.toNat + span.start.toNat)
        last := .ofNat (base.toNat + span.stop.toNat - 1)
        inlined := false }
    else none

theorem rangesOf_cons_chooseBase (base address : UInt32) (items : List (ListItem A)) :
    rangesOf base (.chooseBase address :: items) = rangesOf address items := by
  rw [rangesOf, ListItem.based_cons_chooseBase, rangesOf]

theorem rangesOf_cons_entry (base : UInt32) (span : ListItem.Interval) (payload : A)
    (items : List (ListItem A)) :
    rangesOf base (.entry span payload :: items) =
      (CodeRange.ofHalfOpen? (base + span.start) (base + span.stop)).toList ++
        rangesOf base items := by
  simp only [rangesOf, ListItem.based_cons_entry, List.filterMap_cons]
  cases CodeRange.ofHalfOpen? (base + span.start) (base + span.stop) <;> rfl

def Ends (order : ByteOrder) : List UInt8 → Prop := ListItem.Ends order fun _ : Unit => []

section

variable (order : ByteOrder) (base : UInt32)

theorem ranges_pair (low high : UInt32) (rest : List UInt8) :
    ranges order base (order.bytes32 low ++ (order.bytes32 high ++ rest)) =
      if low = 0 ∧ high = 0 then .ok []
      else if low = baseSelection then ranges order high rest
      else
        match ranges order base rest with
        | .error cause => .error cause
        | .ok later => .ok ((CodeRange.ofHalfOpen? (base + low) (base + high)).toList ++ later) := by
  have first := order.ofNat_value_bytes32 low
  have second := order.ofNat_value_bytes32 high
  obtain ⟨a, b, c, d, word⟩ : ∃ a b c d, order.bytes32 low = [a, b, c, d] := order.encode_four _
  obtain ⟨e, f, g, h, word'⟩ : ∃ a b c d, order.bytes32 high = [a, b, c, d] := order.encode_four _
  rw [word] at first ⊢
  rw [word'] at second ⊢
  subst first second
  exact ranges.eq_def order base _

theorem ranges_end (rest : List UInt8) :
    ranges order base (order.bytes32 0 ++ (order.bytes32 0 ++ rest)) = .ok [] := by
  rw [ranges_pair, if_pos ⟨rfl, rfl⟩]

theorem ranges_chooseBase (address : UInt32) (rest : List UInt8) :
    ranges order base (order.bytes32 0xffffffff ++ (order.bytes32 address ++ rest)) =
      ranges order address rest := by
  have chooses : (0xffffffff : UInt32) = baseSelection := rfl
  rw [ranges_pair, if_neg fun zero => absurd zero.1 (by decide), if_pos chooses]

theorem ranges_entry (span : ListItem.Interval) (rest : List UInt8) :
    ranges order base (order.bytes32 span.start ++ (order.bytes32 span.stop ++ rest)) =
      (ranges order base rest).map
        ((CodeRange.ofHalfOpen? (base + span.start) (base + span.stop)).toList ++ ·) := by
  have ordinary : span.start ≠ baseSelection := UInt32.ne_of_lt span.ordinary
  rw [ranges_pair, if_neg span.nonzero, if_neg ordinary]
  cases ranges order base rest <;> rfl

end

theorem ranges_bytes (order : ByteOrder) (base : UInt32) (items : List (ListItem A))
    (rest : List UInt8) :
    ranges order base (bytes order items ++ rest) = .ok (rangesOf base items) := by
  unfold bytes
  induction items generalizing base with
  | nil =>
    rw [ListItem.listBytes, List.flatMap_nil, List.nil_append, List.append_assoc]
    exact ranges_end order base rest
  | cons item items ih =>
    rw [ListItem.listBytes] at ih ⊢
    cases item with
    | chooseBase address =>
      rw [List.flatMap_cons, ListItem.bytes]
      simp only [List.append_assoc] at ih ⊢
      rw [ranges_chooseBase, ih, rangesOf_cons_chooseBase]
    | entry span payload =>
      rw [List.flatMap_cons, ListItem.bytes]
      simp only [List.append_assoc, List.nil_append] at ih ⊢
      rw [ranges_entry, ih, rangesOf_cons_entry]
      rfl

theorem ends_or_error (order : ByteOrder) (base : UInt32) (data : List UInt8) :
    Ends order data ∨ ranges order base data = .error .unexpectedEnd := by
  fun_induction ranges order base data with
  | case1 base a b c d e f g h rest low high zero =>
    rw [order.eight_bytes_eq, show UInt32.ofNat _ = 0 from zero.1,
      show UInt32.ofNat _ = 0 from zero.2]
    exact .inl ListItem.ends_zeros
  | case2 base a b c d e f g h rest low high nonzero chooses ih =>
    rw [order.eight_bytes_eq, show UInt32.ofNat _ = 0xffffffff from chooses]
    exact ih.imp_left (ListItem.Ends.chooseBase · high)
  | case3 base a b c d e f g h rest low high nonzero ordinary cause read ih =>
    rw [order.eight_bytes_eq]
    rw [read] at ih
    exact ih.imp_left fun ends =>
      ListItem.Ends.entry ends ⟨low, high, ListItem.lt_marker_of_ne ordinary, nonzero⟩ ()
  | case4 base a b c d e f g h rest low high nonzero ordinary later read ih =>
    rw [order.eight_bytes_eq]
    rw [read] at ih
    rcases ih with ends | failed
    · exact .inl
        (ListItem.Ends.entry ends ⟨low, high, ListItem.lt_marker_of_ne ordinary, nonzero⟩ ())
    · cases failed
  | case5 => exact .inr rfl

theorem ranges_plain (order : ByteOrder) (base : UInt32) (bytes : List UInt8)
    {code : List CodeRange} (decoded : ranges order base bytes = .ok code) :
    ∀ r ∈ code, r.inlined = false := by
  fun_induction ranges order base bytes generalizing code with
  | case1 =>
    obtain rfl := Except.ok.inj decoded
    simp
  | case2 =>
    rename_i ih
    exact ih decoded
  | case3 => cases decoded
  | case4 =>
    rename_i later atRest ih
    obtain rfl := Except.ok.inj decoded
    intro r member
    rcases List.mem_append.1 member with here | after
    · exact CodeRange.ofHalfOpen?_plain _ _ r here
    · exact ih atRest r after
  | case5 => cases decoded

theorem ranges_listed {section_ : RangeSection} {offset : Nat} {items : List (ListItem A)}
    {rest : List UInt8} (listed : section_.data.drop offset = bytes section_.order items ++ rest)
    (base : UInt32) : section_.ranges offset base = .ok (rangesOf base items) := by
  unfold RangeSection.ranges
  by_cases beyond : section_.data.length < offset
  · rw [List.drop_eq_nil_of_le (Nat.le_of_lt beyond)] at listed
    exact absurd ⟨items, rest, listed⟩ ListItem.not_ends_nil
  · rw [if_neg beyond, listed]
    exact ranges_bytes section_.order base items rest

theorem ranges_error_iff (section_ : RangeSection) (offset : Nat) (base : UInt32) :
    section_.ranges offset base = .error .unexpectedEnd ↔
      ¬Ends section_.order (section_.data.drop offset) := by
  constructor
  · rintro failed ⟨items, rest, listed⟩
    cases (ranges_listed listed base).symm.trans failed
  · intro endless
    unfold RangeSection.ranges
    split
    · rfl
    · exact (ends_or_error section_.order base _).resolve_left endless

theorem ranges_section (order : ByteOrder) (base : UInt32) (items : List (ListItem A))
    (front rest : List UInt8) :
    (⟨order, front ++ (bytes order items ++ rest)⟩ : RangeSection).ranges front.length base =
      .ok (rangesOf base items) :=
  @ranges_listed _ ⟨order, front ++ (bytes order items ++ rest)⟩ _ _ _ List.drop_left base

theorem ofHalfOpen?_of_fits {base : UInt32} {span : ListItem.Interval} (fits : span.Fits base) :
    CodeRange.ofHalfOpen? (base + span.start) (base + span.stop) =
      if span.start < span.stop then
        some {
          first := .ofNat (base.toNat + span.start.toNat)
          last := .ofNat (base.toNat + span.stop.toNat - 1)
          inlined := false }
      else none := by
  have low : base + span.start = .ofNat (base.toNat + span.start.toNat) := by
    rw [UInt32.ofNat_add, UInt32.ofNat_toNat, UInt32.ofNat_toNat]
  have high : base + span.stop = .ofNat (base.toNat + span.stop.toNat) := by
    rw [UInt32.ofNat_add, UInt32.ofNat_toNat, UInt32.ofNat_toNat]
  rw [low, high, CodeRange.ofHalfOpen?_ofNat fits.1 fits.2]
  simp only [Nat.add_lt_add_iff_left, UInt32.lt_iff_toNat_lt]

theorem rangesOf_of_fits {base : UInt32} {items : List (ListItem A)}
    (fits : ∀ current span payload, (current, span, payload) ∈ ListItem.based base items →
      span.Fits current) : rangesOf base items = plainRanges base items :=
  List.filterMap_congr fun (current, span, payload) member =>
    ofHalfOpen?_of_fits (fits current span payload member)

/-- A list gives in order the ranges of its pairs that are not empty, each from the base in effect
plus the first word up to one before that base plus the second. Bytes that end before their list
does are refused. -/
theorem ranges_written (order : ByteOrder) (items : List (ListItem A)) (base : UInt32)
    (fits : ∀ current span payload, (current, span, payload) ∈ ListItem.based base items →
      span.Fits current) (front rest : List UInt8) :
    (⟨order, front ++ (bytes order items ++ rest)⟩ : RangeSection).ranges front.length base =
        .ok (plainRanges base items) ∧
      ∀ (section_ : RangeSection) (offset : Nat) (start : UInt32),
        section_.ranges offset start = .error .unexpectedEnd ↔
          ¬Ends section_.order (section_.data.drop offset) :=
  ⟨rangesOf_of_fits fits ▸ ranges_section order base items front rest, ranges_error_iff⟩

def mixed : List (ListItem Unit) :=
  [.entry ⟨0, 8, by decide, by decide⟩ (), .chooseBase 0x100, .entry ⟨4, 6, by decide, by decide⟩ (),
    .entry ⟨0x30, 0x30, by decide, by decide⟩ (), .chooseBase 0xfffffff0,
    .entry ⟨2, 15, by decide, by decide⟩ ()]

def mixedBytes : List UInt8 :=
  [7,
    0, 0, 0, 0, 0, 0, 0, 8, 0xff, 0xff, 0xff, 0xff, 0, 0, 1, 0, 0, 0, 0, 4, 0, 0, 0, 6,
    0, 0, 0, 0x30, 0, 0, 0, 0x30, 0xff, 0xff, 0xff, 0xff, 0xff, 0xff, 0xff, 0xf0,
    0, 0, 0, 2, 0, 0, 0, 15, 0, 0, 0, 0, 0, 0, 0, 0,
    9]

theorem ranges_written_mixed : (⟨.big, mixedBytes⟩ : RangeSection).ranges 1 0x8000 =
    .ok [⟨0x8000, 0x8007, false⟩, ⟨0x104, 0x105, false⟩, ⟨0xfffffff2, 0xfffffffe, false⟩] := by
  have fits : ∀ current span payload,
      (current, span, payload) ∈ ListItem.based 0x8000 mixed → span.Fits current := by
    intro current span payload member
    simp only [mixed, ListItem.based_cons_entry, ListItem.based_cons_chooseBase,
      ListItem.based_nil, List.mem_cons, List.not_mem_nil, Prod.mk.injEq, or_false] at member
    rcases member with ⟨rfl, rfl, -⟩ | ⟨rfl, rfl, -⟩ | ⟨rfl, rfl, -⟩ | ⟨rfl, rfl, -⟩ <;>
      exact ⟨by decide, by decide⟩
  exact (ranges_written .big mixed 0x8000 fits [7] [9]).1

end RangeList

end SourceScope
