import SourceScope.Location.Section
import SourceScope.Proofs.Bytes.Reader
import SourceScope.Proofs.Code.ListItems

set_option autoImplicit false

namespace SourceScope.Location

abbrev Payload := { bytes : List UInt8 // bytes.length < 65536 }

def Payload.counted (order : ByteOrder) (payload : Payload) : List UInt8 :=
  order.encode 2 payload.val.length ++ payload.val

def rawOf (base : UInt32) (items : List (ListItem Payload)) : List RawEntry :=
  (ListItem.based base items).filterMap fun (base, span, payload) =>
    if span.start < span.stop then some ⟨base + span.start, base + span.stop, payload.val⟩ else none

section

variable (order : ByteOrder) (base : UInt32)

theorem rawEntries_pair (start stop : UInt32) (rest : List UInt8) :
    rawEntries order base (order.bytes32 start ++ (order.bytes32 stop ++ rest)) =
      if start = 0 ∧ stop = 0 then .ok []
      else if start = baseSelection then rawEntries order stop rest
      else
        match rest with
        | i :: j :: rest =>
          let length := order.value [i, j]
          let bytes := rest.take length
          if bytes.length < length then .error (.malformed .unexpectedEnd)
          else
            match rawEntries order base (rest.drop length) with
            | .error cause => .error cause
            | .ok later =>
              .ok (if start < stop then ⟨base + start, base + stop, bytes⟩ :: later else later)
        | _ => .error (.malformed .unexpectedEnd) := by
  have first := order.ofNat_value_bytes32 start
  have second := order.ofNat_value_bytes32 stop
  obtain ⟨a, b, c, d, word⟩ : ∃ a b c d, order.bytes32 start = [a, b, c, d] := order.encode_four _
  obtain ⟨e, f, g, h, word'⟩ : ∃ a b c d, order.bytes32 stop = [a, b, c, d] := order.encode_four _
  rw [word] at first ⊢
  rw [word'] at second ⊢
  subst first second
  exact rawEntries.eq_def order base _

theorem rawEntries_end (rest : List UInt8) :
    rawEntries order base (order.bytes32 0 ++ (order.bytes32 0 ++ rest)) = .ok [] := by
  rw [rawEntries_pair, if_pos ⟨rfl, rfl⟩]

theorem rawEntries_chooseBase (address : UInt32) (rest : List UInt8) :
    rawEntries order base (order.bytes32 0xffffffff ++ (order.bytes32 address ++ rest)) =
      rawEntries order address rest := by
  have chooses : (0xffffffff : UInt32) = baseSelection := rfl
  rw [rawEntries_pair, if_neg fun zero => absurd zero.1 (by decide), if_pos chooses]

theorem rawEntries_entry (span : ListItem.Interval) (payload : Payload) (rest : List UInt8) :
    rawEntries order base (order.bytes32 span.start ++ (order.bytes32 span.stop ++
        (payload.counted order ++ rest))) =
      (rawEntries order base rest).map fun later =>
        if span.start < span.stop then
          ⟨base + span.start, base + span.stop, payload.val⟩ :: later
        else later := by
  have count : order.value (order.encode 2 payload.val.length) = payload.val.length :=
    ByteOrder.value_encode_of_lt payload.property
  obtain ⟨i, j, length⟩ := order.encode_two payload.val.length
  have ordinary : span.start ≠ baseSelection := UInt32.ne_of_lt span.ordinary
  rw [length] at count
  rw [rawEntries_pair, if_neg span.nonzero, if_neg ordinary, Payload.counted, length]
  simp only [List.cons_append, List.nil_append, count, List.take_left, List.drop_left]
  rw [if_neg (Nat.lt_irrefl _)]
  cases rawEntries order base rest <;> rfl

end

theorem rawEntries_listBytes (order : ByteOrder) (base : UInt32) (items : List (ListItem Payload))
    (rest : List UInt8) :
    rawEntries order base (ListItem.listBytes order (Payload.counted order) items ++ rest) =
      .ok (rawOf base items) := by
  induction items generalizing base with
  | nil =>
    rw [ListItem.listBytes, List.flatMap_nil, List.nil_append, List.append_assoc]
    exact rawEntries_end order base rest
  | cons item items ih =>
    rw [ListItem.listBytes] at ih ⊢
    cases item with
    | chooseBase address =>
      rw [List.flatMap_cons, ListItem.bytes]
      simp only [List.append_assoc] at ih ⊢
      rw [rawEntries_chooseBase, ih, rawOf, rawOf, ListItem.based_cons_chooseBase]
    | entry span payload =>
      rw [List.flatMap_cons, ListItem.bytes]
      simp only [List.append_assoc] at ih ⊢
      rw [rawEntries_entry, ih, rawOf, rawOf, ListItem.based_cons_entry, List.filterMap_cons]
      by_cases kept : span.start < span.stop <;> simp [kept, Except.map]

def Ends (order : ByteOrder) (bytes : List UInt8) : Prop :=
  ∃ items rest, bytes = ListItem.listBytes order (Payload.counted order) items ++ rest

section

variable {order : ByteOrder} {rest : List UInt8}

theorem exists_payload (order : ByteOrder) (i j : UInt8)
    (enough : ¬(rest.take (order.value [i, j])).length < order.value [i, j]) :
    ∃ payload : Payload,
      i :: j :: rest = payload.counted order ++ rest.drop (order.value [i, j]) := by
  have length : (rest.take (order.value [i, j])).length = order.value [i, j] :=
    Nat.le_antisymm (List.length_take_le _ _) (Nat.le_of_not_lt enough)
  have small : (rest.take (order.value [i, j])).length < 65536 := by
    rw [length]
    exact order.value_lt [i, j]
  have count : order.encode 2 (rest.take (order.value [i, j])).length = [i, j] := by
    rw [length]
    exact order.encode_value [i, j]
  refine ⟨⟨_, small⟩, ?_⟩
  simp only [Payload.counted, count, List.append_assoc, List.take_append_drop]
  rfl

theorem Ends.counted {start stop : UInt32} (nonzero : ¬(start = 0 ∧ stop = 0))
    (ordinary : start ≠ baseSelection) {i j : UInt8}
    (enough : ¬(rest.take (order.value [i, j])).length < order.value [i, j])
    (ends : Ends order (rest.drop (order.value [i, j]))) :
    Ends order (order.bytes32 start ++ (order.bytes32 stop ++ i :: j :: rest)) := by
  obtain ⟨payload, counted⟩ := exists_payload order i j enough
  rw [counted]
  exact ListItem.Ends.entry ends ⟨start, stop, ListItem.lt_marker_of_ne ordinary, nonzero⟩ payload

end

theorem ends_or_error (order : ByteOrder) (base : UInt32) (bytes : List UInt8) :
    Ends order bytes ∨ rawEntries order base bytes = .error (.malformed .unexpectedEnd) := by
  fun_induction rawEntries order base bytes with
  | case1 base a b c d e f g h rest start stop zero =>
    rw [order.eight_bytes_eq, show UInt32.ofNat _ = 0 from zero.1, show UInt32.ofNat _ = 0 from zero.2]
    exact .inl ListItem.ends_zeros
  | case2 base a b c d e f g h rest start stop nonzero chooses ih =>
    rw [order.eight_bytes_eq, show UInt32.ofNat _ = 0xffffffff from chooses]
    exact ih.imp_left (ListItem.Ends.chooseBase · stop)
  | case4 base a b c d e f g h start stop nonzero ordinary i j rest length bytes enough cause
      read ih =>
    rw [order.eight_bytes_eq]
    rw [read] at ih
    exact ih.imp_left (·.counted nonzero ordinary enough)
  | case5 base a b c d e f g h start stop nonzero ordinary i j rest length bytes enough later
      read ih =>
    rw [order.eight_bytes_eq]
    rw [read] at ih
    rcases ih with ends | failed
    · exact .inl (ends.counted nonzero ordinary enough)
    · cases failed
  | case3 | case6 | case7 => exact .inr rfl

theorem rawEntries_section (order : ByteOrder) (base : UInt32) (items : List (ListItem Payload))
    (front rest : List UInt8) :
    (⟨order, front ++ (ListItem.listBytes order (Payload.counted order) items ++ rest)⟩ :
      LocationSection).rawEntries front.length base = .ok (rawOf base items) := by
  unfold LocationSection.rawEntries
  rw [if_neg (by simp), List.drop_left]
  exact rawEntries_listBytes order base items rest

/-- A list gives its entries that are not empty, in order, each moved by the base in effect, and
bytes that end before their list does are refused. -/
theorem rawEntries_written (order : ByteOrder) (items : List (ListItem Payload)) (base : UInt32)
    (front rest : List UInt8) :
    (⟨order, front ++ (ListItem.listBytes order (Payload.counted order) items ++ rest)⟩ :
        LocationSection).rawEntries front.length base = .ok (rawOf base items) ∧
      ∀ (section_ : LocationSection) (offset : Nat) (start : UInt32),
        section_.rawEntries offset start = .error (.malformed .unexpectedEnd) ↔
          ¬Ends section_.order (section_.data.drop offset) := by
  refine ⟨rawEntries_section order base items front rest, fun section_ offset start => ?_⟩
  unfold LocationSection.rawEntries
  by_cases beyond : section_.data.length < offset
  · rw [if_pos beyond, List.drop_eq_nil_of_le (Nat.le_of_lt beyond)]
    exact iff_of_true rfl ListItem.not_ends_nil
  · rw [if_neg beyond]
    constructor
    · rintro failed ⟨items, rest, bytes⟩
      rw [bytes, rawEntries_listBytes] at failed
      cases failed
    · exact (ends_or_error section_.order start (section_.data.drop offset)).resolve_left

end SourceScope.Location
