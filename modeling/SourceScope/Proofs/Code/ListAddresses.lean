import SourceScope.Proofs.Code.RangeLists
import SourceScope.Proofs.Location.Lists

set_option autoImplicit false

namespace SourceScope

namespace ListItem.Interval

def Spans (base : UInt32) (span : Interval) (pc : UInt32) : Prop :=
  base + span.start ≤ pc ∧ pc < base + span.stop

/-- Only the start passes the end of the address space. -/
def Flips (base : UInt32) (span : Interval) : Prop :=
  0xffffffff < base.toNat + span.start.toNat ∧ base.toNat + span.stop.toNat ≤ 0xffffffff

theorem ordered_or_flips {base : UInt32} {span : Interval}
    (nonempty : base + span.start < base + span.stop) : span.start < span.stop ∨ span.Flips base := by
  have base_lt := base.toNat_lt
  have start_lt := span.start.toNat_lt
  have stop_lt := span.stop.toNat_lt
  unfold Flips
  rw [UInt32.lt_iff_toNat_lt, UInt32.toNat_add, UInt32.toNat_add] at nonempty
  rw [UInt32.lt_iff_toNat_lt]
  omega

end ListItem.Interval

namespace Location

def Held (entries : List RawEntry) (pc : UInt32) : Prop :=
  ∃ e ∈ entries, e.start ≤ pc ∧ pc < e.stop

section

variable {base : UInt32} {items : List (ListItem Payload)} {pc : UInt32}

theorem covered_rangesOf_iff : Covered (RangeList.rangesOf base items) pc ↔
    ∃ current span payload, (current, span, payload) ∈ ListItem.based base items ∧
      span.Spans current pc := by
  rw [RangeList.rangesOf, covered_filterMap_iff]
  simp only [covered_ofHalfOpen?_iff, Prod.exists]
  rfl

theorem held_rawOf_iff : Held (rawOf base items) pc ↔
    ∃ current span payload, (current, span, payload) ∈ ListItem.based base items ∧
      span.start < span.stop ∧ span.Spans current pc := by
  unfold Held rawOf
  constructor
  · rintro ⟨e, member, inside⟩
    obtain ⟨⟨current, span, payload⟩, listed, made⟩ := List.mem_filterMap.1 member
    obtain ⟨ordered, same⟩ := Option.ite_none_right_eq_some.1 made
    cases same
    exact ⟨current, span, payload, listed, ordered, inside⟩
  · rintro ⟨current, span, payload, listed, ordered, inside⟩
    exact ⟨_, List.mem_filterMap.2 ⟨_, listed, if_pos ordered⟩, inside⟩

theorem covered_iff_held_or_flipped : Covered (RangeList.rangesOf base items) pc ↔
    Held (rawOf base items) pc ∨
      ∃ current span payload, (current, span, payload) ∈ ListItem.based base items ∧
        span.Flips current ∧ span.Spans current pc := by
  rw [covered_rangesOf_iff, held_rawOf_iff]
  constructor
  · rintro ⟨current, span, payload, listed, inside⟩
    have nonempty := Std.lt_of_le_of_lt inside.1 inside.2
    rcases ListItem.Interval.ordered_or_flips nonempty with ordered | flips
    · exact .inl ⟨current, span, payload, listed, ordered, inside⟩
    · exact .inr ⟨current, span, payload, listed, flips, inside⟩
  · rintro (⟨current, span, payload, listed, -, inside⟩ | ⟨current, span, payload, listed, -, inside⟩)
    all_goals exact ⟨current, span, payload, listed, inside⟩

end

/-- The two readings of a list differ in what its flipped pairs span, and so they hold the same
addresses exactly when entries of the location list take care of all that. -/
theorem addresses_agree_iff (order order' : ByteOrder) (items : List (ListItem Payload))
    (base : UInt32) (front rest front' rest' : List UInt8) :
    ∃ ranges entries,
      (⟨order, front ++ (RangeList.bytes order items ++ rest)⟩ : RangeSection).ranges
          front.length base = .ok ranges ∧
        (⟨order', front' ++ (ListItem.listBytes order' (Payload.counted order') items ++ rest')⟩ :
          LocationSection).rawEntries front'.length base = .ok entries ∧
        (∀ pc, Covered ranges pc ↔ Held entries pc ∨
          ∃ current span payload, (current, span, payload) ∈ ListItem.based base items ∧
            span.Flips current ∧ span.Spans current pc) ∧
        ((∀ pc, Covered ranges pc ↔ Held entries pc) ↔
          ∀ current span payload, (current, span, payload) ∈ ListItem.based base items →
            span.Flips current → ∀ pc, span.Spans current pc → Held entries pc) := by
  refine ⟨_, _, RangeList.ranges_section order base items front rest,
    rawEntries_section order' base items front' rest', fun pc => covered_iff_held_or_flipped, ?_⟩
  constructor
  · intro same current span payload listed flips pc inside
    exact (same pc).1 (covered_iff_held_or_flipped.2 (.inr ⟨_, _, _, listed, flips, inside⟩))
  · intro taken pc
    rw [covered_iff_held_or_flipped, or_iff_left_iff_imp]
    rintro ⟨current, span, payload, listed, flips, inside⟩
    exact taken current span payload listed flips pc inside

def flipped : List (ListItem Payload) :=
  [.entry ⟨0xfffffff8, 0, by decide, by decide⟩ ⟨[0x50], by decide⟩]

def flippedRanges : RangeSection :=
  ⟨.little, [0xf8, 0xff, 0xff, 0xff, 0, 0, 0, 0, 0, 0, 0, 0, 0, 0, 0, 0]⟩

def flippedEntries : LocationSection :=
  ⟨.little, [0xf8, 0xff, 0xff, 0xff, 0, 0, 0, 0, 1, 0, 0x50, 0, 0, 0, 0, 0, 0, 0, 0]⟩

/-- With 16 for a base it is a range of eight addresses and no entry. -/
theorem flipped_strays :
    flippedRanges.data = RangeList.bytes .little flipped ∧
      flippedEntries.data = ListItem.listBytes .little (Payload.counted .little) flipped ∧
      ∃ ranges entries, flippedRanges.ranges 0 16 = .ok ranges ∧
        flippedEntries.rawEntries 0 16 = .ok entries ∧ Covered ranges 8 ∧ ¬Held entries 8 := by
  refine ⟨rfl, rfl, [⟨8, 15, false⟩], [], rfl, ?_, ?_, ?_⟩
  · cbv
  · exact ⟨_, List.mem_cons_self, by decide⟩
  · rintro ⟨_, member, -⟩
    exact List.not_mem_nil member

end Location

end SourceScope
