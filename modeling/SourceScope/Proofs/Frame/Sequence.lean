import Mathlib
import SourceScope.Frame.Section
import SourceScope.Proofs.Bytes.Reader
import SourceScope.Proofs.Bytes.Leb128
import SourceScope.Proofs.Order.Sorted

set_option autoImplicit false

namespace SourceScope

namespace Frame

structure CommonFields where
  codeAlign : UInt32
  dataAlign : Int64
  returnRegister : UInt8
  instructions : List UInt8
  codeBytes : List UInt8
  dataBytes : List UInt8
  codeWritten : Leb128.Unsigned64 codeAlign.toNat codeBytes
  dataWritten : Leb128.Signed64 dataAlign.toInt dataBytes

inductive Item where
  | common (fields : CommonFields)
  -- `owner` is the index of the item that is the common entry.
  | description (owner : Nat) (start length : UInt32) (instructions : List UInt8)
  | padding

namespace Item

def bodyLength : Item → Nat
  | common fields =>
    7 + fields.codeBytes.length + fields.dataBytes.length + fields.instructions.length
  | description _ _ _ instructions => 12 + instructions.length
  | padding => 0

def size (item : Item) : Nat := 4 + item.bodyLength

end Item

def offsetAt (items : List Item) (index : Nat) : Nat := ((items.take index).map Item.size).sum

def CommonFields.entry (fields : CommonFields) (offset : Nat) : CommonEntry :=
  ⟨offset, fields.codeAlign, fields.dataAlign, fields.returnRegister.toUInt16, fields.instructions⟩

def CommonFields.body (order : ByteOrder) (fields : CommonFields) : List UInt8 :=
  order.bytes32 0xffffffff ++ 1 :: 0 ::
    (fields.codeBytes ++ (fields.dataBytes ++ fields.returnRegister :: fields.instructions))

namespace Item

def body (order : ByteOrder) (items : List Item) : Item → List UInt8
  | common fields => fields.body order
  | description owner start length instructions =>
    order.bytes32 (UInt32.ofNat (offsetAt items owner)) ++
      (order.bytes32 start ++ (order.bytes32 length ++ instructions))
  | padding => []

def bytes (order : ByteOrder) (items : List Item) (item : Item) : List UInt8 :=
  order.encode 4 item.bodyLength ++ item.body order items

def entry? (items : List Item) (offset : Nat) : Item → Option Entry
  | common fields => some (.common (fields.entry offset))
  | description owner start length instructions =>
    some (.description ⟨offset, offsetAt items owner, start, length, instructions⟩)
  | padding => none

end Item

def sectionBytes (order : ByteOrder) (items : List Item) : List UInt8 :=
  items.flatMap (Item.bytes order items)

def entriesOf (items : List Item) : List Entry :=
  (items.mapIdx fun index item => item.entry? items (offsetAt items index)).reduceOption

def descriptionsOf (items : List Item) : List Description :=
  (entriesOf items).filterMap fun | .description entry => some entry | .common _ => none

def commonsOf (items : List Item) : List CommonEntry :=
  (entriesOf items).filterMap fun | .common entry => some entry | .description _ => none

def Linked (items : List Item) : Prop :=
  ∀ owner start length instructions, Item.description owner start length instructions ∈ items →
    ∃ fields, items[owner]? = some (.common fields)

theorem alignments_read (fields : CommonFields) :
    alignments (fields.codeBytes ++ (fields.dataBytes ++
        fields.returnRegister :: fields.instructions)) =
      .ok ((fields.codeAlign, fields.dataAlign, fields.returnRegister.toUInt16),
        fields.instructions) := by
  unfold alignments
  refine (Reader.bind_ok (Leb128.unsigned_read fields.codeWritten _) _).trans ?_
  refine (Reader.bind_ok (Leb128.signed_read fields.dataWritten _) _).trans ?_
  rw [UInt32.ofNat_toNat, Int64.ofInt_toInt]
  rfl

theorem truncating_ok {A : Type} {reader : Reader A} {input : List UInt8} {found : A × List UInt8}
    (read : reader input = .ok found) : truncating reader input = .ok found := by
  unfold truncating
  rw [read]

theorem parse_common (order : ByteOrder) (offset : Nat) (fields : CommonFields) :
    Entry.parse order offset (fields.body order) = .ok (.common (fields.entry offset)) := by
  have numbers := truncating_ok (alignments_read fields)
  have parsed : CommonEntry.parse offset (1 :: 0 :: (fields.codeBytes ++ (fields.dataBytes ++
      fields.returnRegister :: fields.instructions))) = .ok (fields.entry offset) := by
    change Except.bind (truncating alignments _) _ = _
    rw [numbers]
    rfl
  unfold Entry.parse CommonFields.body
  rw [truncating_ok (Reader.word32_append order 0xffffffff _)]
  change Except.bind (CommonEntry.parse offset _) _ = _
  rw [parsed]
  rfl

theorem parse_description (order : ByteOrder) (offset : Nat) {pointer : UInt32}
    (ordinary : pointer ≠ commonMarker) (start length : UInt32) (instructions : List UInt8) :
    Entry.parse order offset
        (order.bytes32 pointer ++ (order.bytes32 start ++ (order.bytes32 length ++ instructions))) =
      .ok (.description ⟨offset, pointer.toNat, start, length, instructions⟩) := by
  have parsed : Description.parse order offset pointer
      (order.bytes32 start ++ (order.bytes32 length ++ instructions)) =
        .ok ⟨offset, pointer.toNat, start, length, instructions⟩ := by
    unfold Description.parse
    rw [truncating_ok (Reader.word32_append order start _)]
    change Except.bind (truncating (Reader.word32 order) _) _ = _
    rw [truncating_ok (Reader.word32_append order length _)]
    rfl
  unfold Entry.parse
  rw [truncating_ok (Reader.word32_append order pointer _)]
  change (if pointer = commonMarker then _ else _) = _
  rw [if_neg ordinary, parsed]
  rfl

theorem length_body (order : ByteOrder) (items : List Item) (item : Item) :
    (item.body order items).length = item.bodyLength := by
  cases item <;> simp [Item.body, Item.bodyLength, CommonFields.body, ByteOrder.bytes32] <;> omega

theorem entries_padding (order : ByteOrder) (offset : Nat) (rest : List UInt8) :
    entries order offset (order.encode 4 0 ++ rest) = entries order (offset + 4) rest := by
  have value : order.value (order.encode 4 0) = 0 := ByteOrder.value_encode_of_lt (by decide)
  obtain ⟨a, b, c, d, word⟩ := order.encode_four 0
  rw [word] at value ⊢
  simp only [List.cons_append, List.nil_append]
  rw [entries]
  simp only [value]
  rfl

theorem entries_framed {order : ByteOrder} {offset : Nat} {body : List UInt8} {entry : Entry}
    (parsed : Entry.parse order offset body = .ok entry) (nonempty : 0 < body.length)
    (small : body.length < 2 ^ 31) (rest : List UInt8) :
    entries order offset (order.encode 4 body.length ++ (body ++ rest)) =
      (entries order (offset + 4 + body.length) rest).map (entry :: ·) := by
  have value : order.value (order.encode 4 body.length) = body.length :=
    ByteOrder.value_encode_of_lt (Nat.lt_trans small (by decide))
  obtain ⟨a, b, c, d, word⟩ := order.encode_four body.length
  rw [word] at value ⊢
  simp only [List.cons_append, List.nil_append]
  rw [entries]
  simp only [value, List.take_left, List.drop_left, parsed]
  rw [if_neg (by omega), if_neg (by omega), if_neg (by omega)]
  cases entries order (offset + 4 + body.length) rest <;> rfl

section

variable {order : ByteOrder} {items : List Item}

theorem offsetAt_le (items : List Item) (index : Nat) :
    offsetAt items index ≤ (items.map Item.size).sum :=
  ((List.take_sublist index items).map Item.size).sum_le_sum fun _ _ => Nat.zero_le _

theorem entries_item (small : (items.map Item.size).sum < 2 ^ 31) (offset : Nat) {item : Item}
    (listed : item ∈ items) (rest : List UInt8) :
    entries order offset (item.bytes order items ++ rest) =
      (entries order (offset + item.size) rest).map ((item.entry? items offset).toList ++ ·) := by
  have sized := length_body order items item
  have inside : item.size ≤ (items.map Item.size).sum :=
    List.le_sum_of_mem (List.mem_map_of_mem listed)
  rw [Item.size, ← sized] at inside
  have framed {entry : Entry} (parsed : Entry.parse order offset (item.body order items) = .ok entry)
      (nonempty : 0 < item.bodyLength) :
      entries order offset (item.bytes order items ++ rest) =
        (entries order (offset + item.size) rest).map (entry :: ·) := by
    have read := entries_framed parsed (by omega) (by omega) rest
    rwa [sized, Nat.add_assoc, ← List.append_assoc] at read
  cases item with
  | padding =>
    rw [Item.bytes, Item.body, List.append_nil]
    refine (entries_padding order offset rest).trans ?_
    exact (congrFun Except.map_id _).symm
  | common fields =>
    refine framed (parse_common order offset fields) ?_
    rw [Item.bodyLength]
    omega
  | description owner start length instructions =>
    have pointed := Nat.lt_of_le_of_lt (offsetAt_le items owner) small
    have pointer : (UInt32.ofNat (offsetAt items owner)).toNat = offsetAt items owner :=
      UInt32.toNat_ofNat_of_lt' (Nat.lt_trans pointed (by decide))
    have ordinary : UInt32.ofNat (offsetAt items owner) ≠ commonMarker := by
      intro same
      have := congrArg UInt32.toNat same
      rw [pointer] at this
      have marker : commonMarker.toNat = 0xffffffff := rfl
      omega
    have parsed := parse_description order offset ordinary start length instructions
    rw [pointer] at parsed
    refine framed parsed ?_
    rw [Item.bodyLength]
    omega

theorem offsetAt_succ (item : Item) (items : List Item) (index : Nat) :
    offsetAt (item :: items) (index + 1) = item.size + offsetAt items index := by
  simp [offsetAt]

-- Induction on what is left of the items; the pointers are those of all of them.
theorem entries_flatMap (small : (items.map Item.size).sum < 2 ^ 31) (start : Nat)
    {rest : List Item} (listed : ∀ item ∈ rest, item ∈ items) :
    entries order start (rest.flatMap (Item.bytes order items)) =
      .ok (rest.mapIdx fun index item =>
        item.entry? items (start + offsetAt rest index)).reduceOption := by
  induction rest generalizing start with
  | nil =>
    rw [List.flatMap_nil, entries]
    rfl
  | cons item rest ih =>
    have later := ih (start + item.size) fun item member => listed item (List.mem_cons_of_mem _ member)
    rw [List.flatMap_cons, entries_item small start (listed item List.mem_cons_self), later,
      List.mapIdx_cons]
    simp only [offsetAt_succ, ← Nat.add_assoc]
    have first : start + offsetAt (item :: rest) 0 = start := rfl
    rw [first]
    cases item.entry? items start <;> rfl

theorem entries_sectionBytes (small : (items.map Item.size).sum < 2 ^ 31) :
    entries order 0 (sectionBytes order items) = .ok (entriesOf items) := by
  have read := @entries_flatMap order items small 0 items fun _ member => member
  simp only [Nat.zero_add] at read
  exact read

theorem mem_entriesOf {entry : Entry} : entry ∈ entriesOf items ↔
    ∃ index item, items[index]? = some item ∧
      Item.entry? items (offsetAt items index) item = some entry := by
  rw [entriesOf, List.reduceOption_mem_iff, List.mem_mapIdx]
  constructor
  · rintro ⟨index, inside, same⟩
    exact ⟨index, items[index], List.getElem?_eq_getElem inside, same⟩
  · rintro ⟨index, item, here, same⟩
    obtain ⟨inside, rfl⟩ := List.getElem?_eq_some_iff.1 here
    exact ⟨index, inside, same⟩

theorem offsetAt_lt {first second : Nat} (before : first < second)
    (inside : first < items.length) : offsetAt items first < offsetAt items second := by
  have next : offsetAt items (first + 1) = offsetAt items first + items[first].size := by
    rw [offsetAt, ← List.take_append_getElem inside, List.map_append, List.sum_append]
    simp [offsetAt]
  have mono : offsetAt items (first + 1) ≤ offsetAt items second :=
    ((List.take_sublist_take_left before).map Item.size).sum_le_sum fun _ _ => Nat.zero_le _
  have positive : 0 < items[first].size := Nat.add_pos_left (by decide) _
  omega

theorem offsetAt_inj {first second : Nat} (inside : first < items.length)
    (inside' : second < items.length) (same : offsetAt items first = offsetAt items second) :
    first = second := by
  rcases Nat.lt_trichotomy first second with before | equal | behind
  · exact absurd same (Nat.ne_of_lt (offsetAt_lt before inside))
  · exact equal
  · exact absurd same.symm (Nat.ne_of_lt (offsetAt_lt behind inside'))

theorem common?_of_mem {table : FrameSection} {entry : CommonEntry} (member : entry ∈ table.commons)
    (only : ∀ other ∈ table.commons, other.offset = entry.offset → other = entry) :
    table.common? entry.offset = some entry := by
  unfold FrameSection.common?
  cases found : table.commons.find? (·.offset == entry.offset) with
  | none =>
    have missing := List.find?_eq_none.1 found entry member
    simp at missing
  | some other =>
    have same := List.find?_some found
    rw [only other (List.mem_of_find?_eq_some found) (beq_iff_eq.1 same)]

theorem mem_commonsOf {entry : CommonEntry} : entry ∈ commonsOf items ↔
    ∃ (index : Nat) (fields : CommonFields), items[index]? = some (Item.common fields) ∧
      fields.entry (offsetAt items index) = entry := by
  rw [commonsOf, List.mem_filterMap]
  constructor
  · rintro ⟨found, member, isCommon⟩
    obtain ⟨index, item, here, same⟩ := mem_entriesOf.1 member
    cases item with
    | common fields =>
      cases same
      cases isCommon
      exact ⟨index, fields, here, rfl⟩
    | description => cases same; cases isCommon
    | padding => cases same
  · rintro ⟨index, fields, here, rfl⟩
    exact ⟨_, mem_entriesOf.2 ⟨index, _, here, rfl⟩, rfl⟩

theorem commonsOf_unique {entry other : CommonEntry} (first : entry ∈ commonsOf items)
    (second : other ∈ commonsOf items) (same : other.offset = entry.offset) : other = entry := by
  obtain ⟨index, fields, here, rfl⟩ := mem_commonsOf.1 first
  obtain ⟨index', fields', here', rfl⟩ := mem_commonsOf.1 second
  have inside := (List.getElem?_eq_some_iff.1 here).1
  have inside' := (List.getElem?_eq_some_iff.1 here').1
  obtain rfl := offsetAt_inj inside' inside same
  rw [here] at here'
  cases here'
  rfl

theorem exists_common_of_described (linked : Linked items) {d : Description}
    (described : d ∈ descriptionsOf items) : ∃ (index : Nat) (fields : CommonFields),
      items[index]? = some (Item.common fields) ∧ d.common = offsetAt items index := by
  rw [descriptionsOf, List.mem_filterMap] at described
  obtain ⟨found, member, isDescription⟩ := described
  obtain ⟨index, item, here, same⟩ := mem_entriesOf.1 member
  cases item with
  | common => cases same; cases isDescription
  | description owner start length instructions =>
    cases same
    cases isDescription
    obtain ⟨fields, common⟩ := linked owner start length instructions (List.mem_of_getElem? here)
    exact ⟨owner, fields, common, rfl⟩
  | padding => cases same

theorem ofEntries_entriesOf (linked : Linked items) :
    FrameSection.ofEntries order (entriesOf items) = .ok ⟨order, commonsOf items,
      (descriptionsOf items).mergeSort fun a b => a.start ≤ b.start⟩ := by
  have known : (descriptionsOf items).find?
      (fun d => !(commonsOf items).any (·.offset == d.common)) = none := by
    refine List.find?_eq_none.2 fun d described => ?_
    obtain ⟨index, fields, here, points⟩ := exists_common_of_described linked described
    have member := mem_commonsOf.2 ⟨index, fields, here, rfl⟩
    have listed : (commonsOf items).any (·.offset == d.common) = true :=
      List.any_eq_true.2 ⟨_, member, beq_iff_eq.2 points.symm⟩
    simp [listed]
  simp only [FrameSection.ofEntries]
  split
  next orphan stray => exact absurd (known.symm.trans stray) (Option.some_ne_none orphan).symm
  next => rfl

end

structure StablySorted {A : Type} (key : A → UInt32) (source sorted : List A) : Prop where
  perm : sorted.Perm source
  ascending : sorted.Pairwise fun a b => key a ≤ key b
  stable : ∀ k, sorted.filter (key · == k) = source.filter (key · == k)

theorem stablySorted_mergeSort {A : Type} (key : A → UInt32) (source : List A) :
    StablySorted key source (source.mergeSort fun a b => key a ≤ key b) := by
  have perm := List.mergeSort_perm source fun a b => key a ≤ key b
  refine ⟨perm, mergeSort_ascending key source, fun k => ?_⟩
  have alike : (source.filter (key · == k)).Pairwise fun a b => decide (key a ≤ key b) := by
    refine List.pairwise_of_forall_mem_list fun a first b second => ?_
    have sameA := beq_iff_eq.1 (List.mem_filter.1 first).2
    have sameB := beq_iff_eq.1 (List.mem_filter.1 second).2
    simp [sameA, sameB]
  have kept := (List.sublist_mergeSort (key_trans key) (key_total key) alike
    List.filter_sublist).filter (key · == k)
  rw [List.filter_filter] at kept
  simp only [Bool.and_self] at kept
  exact (kept.eq_of_length (perm.filter _).length_eq.symm).symm

theorem length_sectionBytes (order : ByteOrder) (items : List Item) :
    (sectionBytes order items).length = (items.map Item.size).sum := by
  have sized : (fun item => (Item.bytes order items item).length) = Item.size := by
    funext item
    simp [Item.bytes, Item.size, length_body]
  rw [sectionBytes, List.length_flatMap, sized]

/-- A section is read back as the descriptions that were written, by ascending start, and each of
them has the common entry that it was written for, which may stand before or behind it. -/
theorem parse_sectionBytes {order : ByteOrder} {items : List Item} (linked : Linked items)
    (small : (sectionBytes order items).length < 2 ^ 31) :
    ∃ table, FrameSection.parse order (sectionBytes order items) = .ok table ∧
      table.order = order ∧
      StablySorted Description.start (descriptionsOf items) table.descriptions ∧
      ∀ owner start length instructions,
        Item.description owner start length instructions ∈ items →
        ∃ fields, items[owner]? = some (.common fields) ∧
          table.common? (offsetAt items owner) = some (fields.entry (offsetAt items owner)) := by
  rw [length_sectionBytes] at small
  have parsed : FrameSection.parse order (sectionBytes order items) = .ok ⟨order, commonsOf items,
      (descriptionsOf items).mergeSort fun a b => a.start ≤ b.start⟩ := by
    unfold FrameSection.parse
    rw [entries_sectionBytes small]
    exact ofEntries_entriesOf linked
  refine ⟨_, parsed, rfl, stablySorted_mergeSort Description.start (descriptionsOf items), ?_⟩
  intro owner start length instructions member
  obtain ⟨fields, here⟩ := linked owner start length instructions member
  have listed := mem_commonsOf.2 ⟨owner, fields, here, rfl⟩
  exact ⟨fields, here,
    common?_of_mem listed fun other member same => commonsOf_unique listed member same⟩

def forwardLinks : List Item :=
  [.description 3 0x2000 16 [0x42], .padding, .description 3 0x2000 8 [],
    .common {
      codeAlign := 128
      dataAlign := -4
      returnRegister := 14
      instructions := [0x0c, 13, 0]
      codeBytes := [0x80, 0x01]
      dataBytes := [0x7c]
      codeWritten := ⟨.more 0x80 1 [1] (by decide) (.last 1 (by decide)), by decide, by decide⟩
      dataWritten := ⟨.negative 0x7c (by decide) (by decide), by decide, by decide, by decide⟩ },
    .description 3 0x1000 4 []]

def forwardLinksBytes : List UInt8 :=
  [0, 0, 0, 13, 0, 0, 0, 37, 0, 0, 0x20, 0, 0, 0, 0, 16, 0x42,
    0, 0, 0, 0,
    0, 0, 0, 12, 0, 0, 0, 37, 0, 0, 0x20, 0, 0, 0, 0, 8,
    0, 0, 0, 13, 0xff, 0xff, 0xff, 0xff, 1, 0, 0x80, 0x01, 0x7c, 14, 0x0c, 13, 0,
    0, 0, 0, 12, 0, 0, 0, 37, 0, 0, 0x10, 0, 0, 0, 0, 4]

theorem parse_forwardLinks :
    ∃ table, FrameSection.parse .big forwardLinksBytes = .ok table ∧
      StablySorted Description.start [⟨0, 37, 0x2000, 16, [0x42]⟩, ⟨21, 37, 0x2000, 8, []⟩,
        ⟨54, 37, 0x1000, 4, []⟩] table.descriptions ∧
      table.common? 37 = some ⟨37, 128, -4, 14, [0x0c, 13, 0]⟩ := by
  have linked : Linked forwardLinks := by
    intro owner start length instructions member
    simp only [forwardLinks, List.mem_cons, Item.description.injEq, List.not_mem_nil, reduceCtorEq,
      or_false, false_or] at member
    rcases member with ⟨rfl, -⟩ | ⟨rfl, -⟩ | ⟨rfl, -⟩ <;> exact ⟨_, rfl⟩
  have written : sectionBytes .big forwardLinks = forwardLinksBytes := by rfl
  have small : (sectionBytes .big forwardLinks).length < 2 ^ 31 := by
    rw [written]
    decide
  obtain ⟨table, parsed, -, sorted, found⟩ := parse_sectionBytes linked small
  obtain ⟨fields, here, common⟩ := found 3 0x1000 4 [] (by simp [forwardLinks])
  cases here
  exact ⟨table, written ▸ parsed, sorted, common⟩

end Frame

end SourceScope
