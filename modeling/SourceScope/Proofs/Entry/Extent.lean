import SourceScope.Entry.Ranges
import SourceScope.Proofs.Code.RangeLists

set_option autoImplicit false

namespace SourceScope

def CoversExactly (ranges : List CodeRange) (low : UInt32) (length : Nat) : Prop :=
  ∀ a : UInt32, Covered ranges a ↔ low.toNat ≤ a.toNat ∧ a.toNat < low.toNat + length

section

variable {low : UInt32} {length : Nat}

theorem add_ofNat_eq (low : UInt32) (length : Nat) :
    low + .ofNat length = .ofNat (low.toNat + length) := by
  rw [UInt32.ofNat_add, UInt32.ofNat_toNat]

theorem ofHalfOpen?_top (top : low.toNat + length = 0x100000000) :
    CodeRange.ofHalfOpen? low (low + .ofNat length) = none := by
  rw [CodeRange.ofHalfOpen?_eq_none_iff, add_ofNat_eq, top]
  exact UInt32.zero_le

theorem coversExactly_iff (positive : 0 < length) (fits : low.toNat + length ≤ 0x100000000) :
    CoversExactly (CodeRange.ofHalfOpen? low (low + .ofNat length)).toList low length ↔
      low.toNat + length < 0x100000000 := by
  constructor
  · intro exactly
    rcases Nat.lt_or_eq_of_le fits with inside | top
    · exact inside
    · have covered := (exactly low).2 ⟨Nat.le_refl _, Nat.lt_add_of_pos_right positive⟩
      rw [ofHalfOpen?_top top] at covered
      obtain ⟨r, member, -⟩ := covered
      exact absurd member List.not_mem_nil
  · intro inside a
    have sum : (low + .ofNat length).toNat = low.toNat + length := by
      rw [add_ofNat_eq]
      exact UInt32.toNat_ofNat_of_lt' inside
    rw [covered_ofHalfOpen?_iff, UInt32.le_iff_toNat_le, UInt32.lt_iff_toNat_lt, sum]

end

namespace Entry

/-- The ways in which an entry says that its code is the `length` bytes from `low` on. -/
inductive Describes (e : Entry) (base : UInt32) (lists : RangeSection) (low : UInt32)
    (length : Nat) : Prop where
  | byLength {value : AttrValue} {count : UInt64}
      (lowPc : e.attr? Attr.lowPc = some (.address low))
      (highPc : e.attr? Attr.highPc = some value) (constant : value.natural? = some count)
      (counted : count.toNat = length)
  | byEnd (lowPc : e.attr? Attr.lowPc = some (.address low))
      (highPc : e.attr? Attr.highPc = some (.address (low + .ofNat length)))
      (below : low.toNat + length < 0x100000000)
  -- The pair is relative to the base of the unit, or to the one that the list chose last before it.
  | byList {offset : Nat} {items : List (ListItem Unit)} {rest : List UInt8} {current : UInt32}
      {span : ListItem.Interval}
      (noLowPc : ∀ address, e.attr? Attr.lowPc ≠ some (.address address))
      (ranges : e.attr? Attr.ranges = some (.rangeList offset))
      (listed : lists.data.drop offset = RangeList.bytes lists.order items ++ rest)
      (single : ListItem.based base items = [(current, span, ())])
      (start : current + span.start = low) (stop : current + span.stop = low + .ofNat length)

theorem highPc?_of_natural {e : Entry} {low : UInt32} {value : AttrValue} {count : UInt64}
    (highPc : e.attr? Attr.highPc = some value) (constant : value.natural? = some count) :
    e.highPc? low = some (low + .ofNat count.toNat) := by
  have narrowed : UInt32.ofNat count.toNat = count.toUInt32 := UInt32.ofNat_uInt64ToNat count
  unfold highPc?
  rw [highPc, narrowed]
  cases value with
  | unsigned | signed => exact congrArg (Option.map fun n : UInt64 => low + n.toUInt32) constant
  | _ => cases constant

variable {e : Entry} {base low : UInt32} {lists : RangeSection} {length : Nat}

theorem ranges_of_lowPc {high : UInt32} (lowPc : e.attr? Attr.lowPc = some (.address low))
    (highPc : e.highPc? low = some high) :
    e.ranges base lists = .ok (CodeRange.ofHalfOpen? low high).toList := by
  unfold ranges
  simp only [lowPc, highPc]

theorem ranges_of_list {offset : Nat}
    (noLowPc : ∀ address, e.attr? Attr.lowPc ≠ some (.address address))
    (listed : e.attr? Attr.ranges = some (.rangeList offset)) :
    e.ranges base lists = lists.ranges offset base := by
  unfold ranges
  split
  next address lowPc => exact absurd lowPc (noLowPc address)
  next => rw [listed]

theorem Describes.ranges_eq (described : e.Describes base lists low length) :
    e.ranges base lists = .ok (CodeRange.ofHalfOpen? low (low + .ofNat length)).toList := by
  cases described with
  | byLength lowPc highPc constant counted =>
    exact counted ▸ ranges_of_lowPc lowPc (highPc?_of_natural highPc constant)
  | byEnd lowPc highPc below =>
    refine ranges_of_lowPc lowPc ?_
    unfold highPc?
    rw [highPc]
  | byList noLowPc ranges listed single start stop =>
    rw [ranges_of_list noLowPc ranges, RangeList.ranges_listed listed base, RangeList.rangesOf,
      single, ← stop, ← start]
    cases made : CodeRange.ofHalfOpen? _ _ <;> simp [made]

/-- Whichever way an entry gives an extent of code, its ranges cover exactly that unless the extent
ends with the address space. Then there are none. -/
theorem ranges_extent_iff (described : e.Describes base lists low length) (positive : 0 < length)
    (fits : low.toNat + length ≤ 0x100000000) :
    ∃ found, e.ranges base lists = .ok found ∧
      (CoversExactly found low length ↔ low.toNat + length < 0x100000000) ∧
      (low.toNat + length = 0x100000000 → found = []) := by
  refine ⟨_, described.ranges_eq, coversExactly_iff positive fits, fun top => ?_⟩
  rw [ofHalfOpen?_top top]
  rfl

def blockWith (attributes : List (Nat × AttrValue)) : Entry :=
  { offset := 20, tag := Tag.lexicalBlock, unit := 11, depth := 1, parent := some 11, attributes }

def behindBase : RangeSection :=
  ⟨.little, [0xff, 0xff, 0xff, 0xff, 0, 0x30, 0, 0, 0x10, 0xf0, 0xff, 0xff, 0x20, 0xf0, 0xff, 0xff,
    0, 0, 0, 0, 0, 0, 0, 0]⟩

theorem ranges_extent_behindBase : ∃ found,
    (blockWith [(Attr.ranges, .rangeList 0)]).ranges 0x8000 behindBase = .ok found ∧
      CoversExactly found 0x2010 16 := by
  have listed : behindBase.data.drop 0 = RangeList.bytes .little [.chooseBase 0x3000,
      .entry ⟨0xfffff010, 0xfffff020, by decide, by decide⟩ ()] ++ [] := rfl
  have described : (blockWith [(Attr.ranges, .rangeList 0)]).Describes 0x8000 behindBase 0x2010 16 :=
    .byList nofun rfl listed rfl rfl rfl
  obtain ⟨found, read, exactly, -⟩ := ranges_extent_iff described (by decide) (by decide)
  exact ⟨found, read, exactly.2 (by decide)⟩

def topmost : Entry := blockWith [(Attr.lowPc, .address 0xffffff00), (Attr.highPc, .unsigned 0x100)]

def topmostListed : Entry := blockWith [(Attr.ranges, .rangeList 0)]

def topmostList : RangeSection :=
  ⟨.little, [0, 0xfe, 0xff, 0xff, 0, 0xff, 0xff, 0xff, 0, 0, 0, 0, 0, 0, 0, 0]⟩

theorem topmost_lost :
    topmost.Describes 0x100 topmostList 0xffffff00 0x100 ∧
      topmost.ranges 0x100 topmostList = .ok [] ∧
      topmostListed.Describes 0x100 topmostList 0xffffff00 0x100 ∧
      topmostListed.ranges 0x100 topmostList = .ok [] ∧
      ¬CoversExactly [] 0xffffff00 0x100 := by
  have listed : topmostList.data.drop 0 = RangeList.bytes .little
      [.entry ⟨0xfffffe00, 0xffffff00, by decide, by decide⟩ ()] ++ [] := rfl
  refine ⟨.byLength rfl rfl rfl (by decide), rfl, .byList nofun rfl listed rfl rfl rfl, rfl,
    fun exactly => ?_⟩
  obtain ⟨_, member, -⟩ := (exactly 0xffffff00).2 (by decide)
  exact List.not_mem_nil member

end Entry

end SourceScope
