import SourceScope.Proofs.Location.Lists
import SourceScope.Proofs.Location.Spelling

set_option autoImplicit false

namespace SourceScope

namespace ByteOrder

def mirror (width n : Nat) : Nat := little.value (big.encode width n)

theorem mirror_lt (width n : Nat) : mirror width n < capacity width := by
  have fits := little.value_lt (big.encode width n)
  rwa [length_encode] at fits

theorem encode_mirror (width n : Nat) :
    little.encode width (mirror width n) = big.encode width n := by
  have same := little.encode_value (big.encode width n)
  rwa [length_encode] at same

theorem take_digits (count width n : Nat) :
    (digits width n).take count = (digits count n).take width := by
  induction count generalizing width n with
  | zero => simp [digits]
  | succ count ih => cases width <;> simp [digits, ih]

theorem capacity_dvd {few width : Nat} (most : few ≤ width) :
    capacity few ∣ capacity width := by
  induction most with
  | refl => exact Nat.dvd_refl _
  | step _ ih => exact Nat.dvd_mul_left_of_dvd ih 256

-- The first digits of a number in two's complement do not depend on its width.
theorem digits_twosComplement {few width : Nat} (most : few ≤ width) (n : Int) :
    digits few (n % capacity width).toNat = digits few (n % capacity few).toNat := by
  have positive := capacity_pos width
  have nonneg : 0 ≤ n % capacity width := Int.emod_nonneg _ (by omega)
  have divides := Int.natCast_dvd_natCast.2 (capacity_dvd most)
  rw [← Int.emod_emod_of_dvd n divides, Int.toNat_emod nonneg (by omega), Int.toNat_natCast,
    digits_mod]

theorem take_twosComplement (count width : Nat) (n : Int) :
    (digits width (n % capacity width).toNat).take count =
      (digits count (n % capacity count).toNat).take width := by
  rcases Nat.le_total count width with few | many
  · rw [take_digits, digits_twosComplement few]
  · rw [take_digits width count, digits_twosComplement many]

end ByteOrder

theorem reverse_eq_of_take {A : Type} {l : List A} {half : Nat} (short : l.length ≤ 2 * half)
    (same : l.reverse.take half = l.take half) : l.reverse = l := by
  have first (i : Nat) (small : i < half) : l.reverse[i]? = l[i]? := by
    rw [← List.getElem?_take_of_lt small, same, List.getElem?_take_of_lt small]
  refine List.ext_getElem? fun i => ?_
  by_cases small : i < half
  · exact first i small
  · by_cases inside : i < l.length
    · have other := first (l.length - 1 - i) (by omega)
      rw [List.getElem?_reverse (by omega)] at other
      rw [List.getElem?_reverse inside, ← other]
      congr 1
      omega
    · simp [Nat.le_of_not_lt inside]

namespace Location

namespace Operation

theorem signedOf_range (width n : Nat) :
    -ByteOrder.capacity width ≤ 2 * signedOf width n ∧
      2 * signedOf width n < ByteOrder.capacity width := by
  have positive := ByteOrder.capacity_pos width
  have least : -(ByteOrder.capacity width / 2 : Int) ≤ signedOf width n := Int.le_bmod positive
  have most : signedOf width n < (ByteOrder.capacity width + 1) / 2 := Int.bmod_lt positive
  omega

theorem twosComplement_signedOf {width n : Nat} (fits : n < ByteOrder.capacity width) :
    (signedOf width n % ByteOrder.capacity width).toNat = n := by
  rw [signedOf, Int.bmod_emod, ← Int.natCast_emod, Int.toNat_natCast, Nat.mod_eq_of_lt fits]

end Operation

namespace Spelling

open Operation

/-- The operation that is read where one was written with the most significant byte first. -/
def swapped : Spelling → Spelling
  | unsigned opcode width known n _ =>
    .unsigned opcode width known (ByteOrder.mirror width n) (ByteOrder.mirror_lt width n)
  | signed opcode width known n _ _ =>
    let digits := ByteOrder.mirror width (n % ByteOrder.capacity width).toNat
    .signed opcode width known (signedOf width digits) (signedOf_range width digits).1
      (signedOf_range width digits).2
  | branch target => .branch (UInt16.ofNat (ByteOrder.mirror 2 target.toUInt16.toNat)).toInt16
  | skip target => .skip (UInt16.ofNat (ByteOrder.mirror 2 target.toUInt16.toNat)).toInt16
  | implicitValue length value =>
    .implicitValue length (UInt32.ofNat (ByteOrder.mirror 4 value.toNat))
  | s => s

theorem front_swapped (s : Spelling) : s.swapped.front = s.front := by
  cases s <;> rfl

theorem fixed_swapped (s : Spelling) :
    s.swapped.fixed = (s.fixed.1, ByteOrder.mirror s.fixed.1 s.fixed.2) := by
  have target (n : Nat) : (UInt16.ofNat (ByteOrder.mirror 2 n)).toInt16.toUInt16.toNat =
      ByteOrder.mirror 2 n := UInt16.toNat_ofNat_of_lt' (ByteOrder.mirror_lt 2 n)
  cases s with
  | signed opcode width known n least most =>
    exact congrArg (width, ·) (twosComplement_signedOf (ByteOrder.mirror_lt _ _))
  | branch | skip => exact congrArg (2, ·) (target _)
  | implicitValue length value =>
    exact congrArg (4, ·) (UInt32.toNat_ofNat_of_lt' (ByteOrder.mirror_lt 4 _))
  | _ => rfl

theorem bytes_swapped (s : Spelling) : s.swapped.bytes .little = s.bytes .big := by
  rw [bytes, bytes, front_swapped, fixed_swapped, ByteOrder.encode_mirror]

theorem bytes_eq_of_swapped {s : Spelling} (same : s.swapped = s) :
    s.bytes .little = s.bytes .big := by
  rw [← bytes_swapped, same]

theorem width_le (s : Spelling) : s.fixed.1 ≤ 8 := by
  have unsignedWidths : ∀ form ∈ unsignedForms, form.2 ≤ 8 := by decide
  have signedWidths : ∀ form ∈ signedForms, form.2 ≤ 8 := by decide
  cases s with
  | unsigned opcode width known n fits => exact unsignedWidths _ known
  | signed opcode width known n least most => exact signedWidths _ known
  | branch | skip => exact show 2 ≤ 8 by decide
  | implicitValue length value => exact show 4 ≤ 8 by decide
  | _ => exact Nat.zero_le 8

theorem digits_const {s : Spelling} {value : UInt32} (constant : s.operation = .const value) :
    (ByteOrder.digits s.fixed.1 s.fixed.2).take 4 =
      (ByteOrder.digits 4 value.toNat).take s.fixed.1 := by
  have low (n : Nat) : ByteOrder.digits 4 (n % 2 ^ 32) = ByteOrder.digits 4 n :=
    ByteOrder.digits_mod 4 n
  cases s with
  | unsigned opcode width known n fits =>
    cases constant
    rw [UInt32.toNat_ofNat', low]
    exact ByteOrder.take_digits 4 width n
  | signed opcode width known n least most =>
    cases constant
    rw [UInt32.ofInt, UInt32.toNat_ofNat', low]
    exact ByteOrder.take_twosComplement 4 width n
  | branch | skip | implicitValue => cases constant
  | _ => rfl

-- Four bytes from either end of an operand cover all of it.
theorem bytes_eq_of_const {s : Spelling} {value : UInt32} (written : s.operation = .const value)
    (read : s.swapped.operation = .const value) : s.bytes .little = s.bytes .big := by
  have front := digits_const written
  have back := digits_const read
  have mirrored : ByteOrder.digits s.fixed.1 (ByteOrder.mirror s.fixed.1 s.fixed.2) =
      (ByteOrder.digits s.fixed.1 s.fixed.2).reverse := ByteOrder.encode_mirror _ _
  rw [fixed_swapped, mirrored, ← front] at back
  have short : (ByteOrder.digits s.fixed.1 s.fixed.2).length ≤ 2 * 4 := by
    rw [ByteOrder.length_digits]
    exact s.width_le
  have same := reverse_eq_of_take short back
  exact congrArg (s.front ++ ·) same.symm

theorem operation_swapped_iff (s : Spelling) :
    s.swapped.operation = s.operation ↔ s.bytes .little = s.bytes .big := by
  constructor
  · intro same
    cases s with
    | branch target => exact bytes_eq_of_swapped (congrArg branch (Operation.branch.inj same))
    | skip target => exact bytes_eq_of_swapped (congrArg skip (Operation.skip.inj same))
    | implicitValue length value =>
      have value := Operation.implicitValue.inj same
      exact bytes_eq_of_swapped (congrArg (implicitValue length) value)
    | unsigned | signed => exact bytes_eq_of_const rfl same
    | _ => exact bytes_eq_of_swapped rfl
  · intro same
    have swapped := reader_spelling s.swapped []
    rw [bytes_swapped, ← same, reader_spelling] at swapped
    exact ((Except.ok.inj (Prod.mk.inj (Except.ok.inj swapped)).1)).symm

def readAs : ByteOrder → Spelling → Spelling
  | .little, s => s
  | .big, s => s.swapped

theorem bytes_readAs (order : ByteOrder) (s : Spelling) :
    (s.readAs order).bytes .little = s.bytes order := by
  cases order with
  | little => rfl
  | big => exact s.bytes_swapped

end Spelling

theorem encoded_readAs (order : ByteOrder) (code : List Spelling) :
    encoded .little (code.map (·.readAs order)) = encoded order code := by
  simp only [encoded, List.flatMap_map, Spelling.bytes_readAs]

theorem length_encoded (order : ByteOrder) (code : List Spelling) :
    (encoded order code).length = (encoded .little code).length := by
  simp [encoded, Spelling.bytes]

theorem placed_congr {a b : List Spelling} (same : encoded .little a = encoded .little b)
    (offset : Nat) : placed offset a = placed offset b := by
  have first := sweep_encoded offset a
  rw [same, sweep_encoded] at first
  exact (Except.ok.inj first).symm

theorem placed_swapped_iff (offset : Nat) (code : List Spelling) :
    placed offset code = placed offset (code.map (·.swapped)) ↔
      ∀ s ∈ code, s.bytes .little = s.bytes .big := by
  constructor
  · intro same s member
    have operations := congrArg (List.map (·.operation)) same
    rw [operations_placed, operations_placed, List.map_map, List.map_inj_left] at operations
    exact s.operation_swapped_iff.1 (operations s member).symm
  · intro same
    refine placed_congr ?_ offset
    rw [encoded, encoded, List.flatMap_map]
    refine List.flatMap_congr fun s member => ?_
    rw [same s member, Spelling.bytes_swapped]

abbrev Code := { code : List Spelling // (encoded .little code).length < 65536 }

def Code.payload (order : ByteOrder) (code : Code) : Payload :=
  ⟨encoded order code.val, by rw [length_encoded]; exact code.property⟩

def listSection (order : ByteOrder) (front rest : List UInt8) (items : List (ListItem Code)) :
    LocationSection :=
  ⟨order, front ++ (ListItem.listBytes order (Payload.counted order)
    (items.map (.map (Code.payload order))) ++ rest)⟩

abbrev BasedCode := UInt32 × ListItem.Interval × Code

def kept (base : UInt32) (items : List (ListItem Code)) : List BasedCode :=
  (ListItem.based base items).filter fun (_, span, _) => span.start < span.stop

def BasedCode.raw (order : ByteOrder) : BasedCode → RawEntry
  | (base, span, code) => ⟨base + span.start, base + span.stop, encoded order code.val⟩

def BasedCode.entry (order : ByteOrder) : BasedCode → Entry
  | (base, span, code) =>
    ⟨base + span.start, base + span.stop, placed 0 (code.val.map (·.readAs order)),
      (encoded order code.val).length⟩

theorem rawOf_payload (order : ByteOrder) (base : UInt32) (items : List (ListItem Code)) :
    rawOf base (items.map (.map (Code.payload order))) =
      (kept base items).map (BasedCode.raw order) := by
  rw [rawOf, ListItem.based_map, List.filterMap_map, kept, ← List.filterMap_eq_map,
    List.filterMap_filter]
  refine List.filterMap_congr ?_
  rintro ⟨chosen, span, code⟩ -
  by_cases nonempty : span.start < span.stop <;> simp [nonempty, BasedCode.raw, Code.payload]

theorem decodeEntry_raw (order : ByteOrder) (based : BasedCode) :
    LocationSection.decodeEntry (based.raw order) = .ok (based.entry order) := by
  obtain ⟨base, span, code⟩ := based
  have swept := sweep_encoded 0 (code.val.map (·.readAs order))
  rw [encoded_readAs] at swept
  simp only [LocationSection.decodeEntry, BasedCode.raw, Expression.decode, swept, BasedCode.entry]

theorem location_listSection (order : ByteOrder) (base : UInt32) (front rest : List UInt8)
    (items : List (ListItem Code)) :
    (listSection order front rest items).location front.length base =
      .ok (.list ((kept base items).map (BasedCode.entry order))) := by
  have raw := rawEntries_section order base (items.map (.map (Code.payload order))) front rest
  have entries : ((kept base items).map (BasedCode.raw order)).mapM LocationSection.decodeEntry =
      .ok ((kept base items).map (BasedCode.entry order)) := by
    rw [List.mapM_map]
    refine Eq.trans ?_ List.mapM_pure
    exact congrArg (List.mapM · _) (funext (decodeEntry_raw order))
  rw [rawOf_payload] at raw
  unfold LocationSection.location listSection
  change Except.bind _ _ = _
  rw [raw]
  change Except.bind (List.mapM _ _) _ = _
  rw [entries]
  rfl

theorem BasedCode.entry_eq_iff (base : UInt32) (span : ListItem.Interval) (code : Code) :
    BasedCode.entry .little (base, span, code) = BasedCode.entry .big (base, span, code) ↔
      ∀ s ∈ code.val, s.bytes .little = s.bytes .big := by
  have unswapped : code.val.map (·.readAs .little) = code.val := List.map_id _
  rw [← placed_swapped_iff 0]
  constructor
  · intro same
    have placed := congrArg (·.expression.placed) same
    simp only [BasedCode.entry, unswapped] at placed
    exact placed
  · intro same
    simp only [BasedCode.entry, unswapped, length_encoded .big]
    rw [same]
    rfl

/-- A list is read in either byte order. Both readings agree exactly where every operation of an
entry that is not empty has the same bytes in both orders. -/
theorem location_orders (base : UInt32) (items : List (ListItem Code))
    (front rest front' rest' : List UInt8) :
    ∃ little big,
      (listSection .little front rest items).location front.length base = .ok little ∧
      (listSection .big front' rest' items).location front'.length base = .ok big ∧
      (little = big ↔
        ∀ span code, .entry span code ∈ items → span.start < span.stop →
          ∀ s ∈ code.val, s.bytes .little = s.bytes .big) := by
  refine ⟨_, _, location_listSection .little base front rest items,
    location_listSection .big base front' rest' items, ?_⟩
  rw [Location.list.injEq, List.map_inj_left]
  constructor
  · intro same span code listed nonempty
    obtain ⟨chosen, entry⟩ := ListItem.exists_mem_based.2 listed
    have inKept : (chosen, span, code) ∈ kept base items :=
      List.mem_filter.2 ⟨entry, decide_eq_true nonempty⟩
    exact (BasedCode.entry_eq_iff chosen span code).1 (same _ inKept)
  · rintro same ⟨chosen, span, code⟩ inKept
    obtain ⟨entry, nonempty⟩ := List.mem_filter.1 inKept
    have listed := ListItem.exists_mem_based.1 ⟨chosen, entry⟩
    have alike := same span code listed (of_decide_eq_true nonempty)
    exact (BasedCode.entry_eq_iff chosen span code).2 alike

def wideConstant : Code := ⟨[.unsigned 0x0c 4 (by decide) 0x20000100 (by decide)], by decide⟩

def wideConstantList : List (ListItem Code) :=
  [.entry ⟨0x10, 0x20, by decide, by decide⟩ wideConstant]

theorem wideConstant_misread :
    (listSection .big [] [] wideConstantList).data =
      [0, 0, 0, 0x10, 0, 0, 0, 0x20, 0, 5, 0x0c, 0x20, 0, 1, 0, 0, 0, 0, 0, 0, 0, 0, 0] ∧
    (listSection .little [] [] wideConstantList).location 0 0 =
      .ok (.list [⟨0x10, 0x20, ⟨[⟨0, .const 0x20000100⟩], 5⟩⟩]) ∧
    (listSection .big [] [] wideConstantList).location 0 0 =
      .ok (.list [⟨0x10, 0x20, ⟨[⟨0, .const 0x00010020⟩], 5⟩⟩]) ∧
    (listSection .little [] [] wideConstantList).location 0 0 ≠
      (listSection .big [] [] wideConstantList).location 0 0 := by
  have little := location_listSection .little 0 [] [] wideConstantList
  have big := location_listSection .big 0 [] [] wideConstantList
  refine ⟨rfl, little, big, fun same => ?_⟩
  have alike := little.symm.trans (same.trans big)
  exact absurd alike (by decide)

end Location

end SourceScope
