import SourceScope.Bytes.Leb128

set_option autoImplicit false

namespace SourceScope

namespace ByteOrder

theorem encode_four (order : ByteOrder) (n : Nat) : ∃ a b c d, order.encode 4 n = [a, b, c, d] := by
  cases order <;> exact ⟨_, _, _, _, rfl⟩

theorem encode_two (order : ByteOrder) (n : Nat) : ∃ a b, order.encode 2 n = [a, b] := by
  cases order <;> exact ⟨_, _, rfl⟩

theorem value_encode_of_lt {order : ByteOrder} {count n : Nat} (fits : n < capacity count) :
    order.value (order.encode count n) = n := by
  rw [value_encode, Nat.mod_eq_of_lt fits]

theorem value_lt (order : ByteOrder) (bytes : List UInt8) :
    order.value bytes < capacity bytes.length := by
  cases order with
  | little => exact leastFirst_lt bytes
  | big =>
    have below := leastFirst_lt bytes.reverse
    rwa [List.length_reverse] at below

theorem ofNat_value_bytes32 (order : ByteOrder) (word : UInt32) :
    UInt32.ofNat (order.value (order.bytes32 word)) = word := by
  rw [bytes32, value_encode_of_lt word.toNat_lt, UInt32.ofNat_toNat]

theorem bytes32_ofNat_value {order : ByteOrder} {bytes : List UInt8} (four : bytes.length = 4) :
    order.bytes32 (UInt32.ofNat (order.value bytes)) = bytes := by
  have fits := order.value_lt bytes
  rw [four] at fits
  have same := order.encode_value bytes
  rwa [four, ← UInt32.toNat_ofNat_of_lt' fits] at same

theorem eight_bytes_eq (order : ByteOrder) (a b c d e f g h : UInt8) (rest : List UInt8) :
    a :: b :: c :: d :: e :: f :: g :: h :: rest =
      order.bytes32 (UInt32.ofNat (order.value [a, b, c, d])) ++
        (order.bytes32 (UInt32.ofNat (order.value [e, f, g, h])) ++ rest) := by
  rw [bytes32_ofNat_value rfl, bytes32_ofNat_value rfl]
  rfl

end ByteOrder

namespace Reader

variable {A B : Type}

section Written

variable {reader : Reader A} {input rest : List UInt8} {a : A}

theorem bind_ok (read : reader input = .ok (a, rest)) (next : A → Reader B) :
    (reader >>= next) input = next a rest := by
  change Except.bind (reader input) _ = _
  rw [read]
  rfl

theorem map_ok (read : reader input = .ok (a, rest)) (f : A → B) :
    (f <$> reader) input = .ok (f a, rest) :=
  bind_ok read fun a => pure (f a)

theorem take_encode (order : ByteOrder) (count n : Nat) (rest : List UInt8) :
    take count (order.encode count n ++ rest) = .ok (order.encode count n, rest) := by
  have taken := take_append (order.encode count n) rest
  rwa [ByteOrder.length_encode] at taken

theorem natural_encode {order : ByteOrder} {count n : Nat} (fits : n < ByteOrder.capacity count)
    (rest : List UInt8) : natural order count (order.encode count n ++ rest) = .ok (n, rest) := by
  rw [natural_of_take (take_encode order count n rest), ByteOrder.value_encode_of_lt fits]

theorem word16_append (order : ByteOrder) (word : UInt16) (rest : List UInt8) :
    word16 order (order.bytes16 word ++ rest) = .ok (word, rest) := by
  refine (map_ok (natural_encode word.toNat_lt rest) _).trans ?_
  rw [UInt16.ofNat_toNat]

end Written

theorem bind_eq_ok_iff {reader : Reader A} {next : A → Reader B} {input rest : List UInt8} {b : B} :
    (reader >>= next) input = .ok (b, rest) ↔
      ∃ a left, reader input = .ok (a, left) ∧ next a left = .ok (b, rest) := by
  change Except.bind (reader input) _ = _ ↔ _
  cases reader input with
  | error cause => simp [Except.bind]
  | ok found =>
    obtain ⟨first, later⟩ := found
    simp [Except.bind, and_assoc]

theorem take_eq_ok {count : Nat} {input taken rest : List UInt8}
    (read : take count input = .ok (taken, rest)) :
    taken.length = count ∧ input = taken ++ rest := by
  simp only [take] at read
  split at read
  next full =>
    obtain ⟨rfl, rfl⟩ := Prod.mk.inj (Except.ok.inj read)
    exact ⟨full, (List.take_append_drop count input).symm⟩
  next => cases read

def LeavesTail (reader : Reader A) : Prop :=
  ∀ input a rest, reader input = .ok (a, rest) → rest <:+ input

@[simp] theorem LeavesTail.pure (a : A) : LeavesTail (pure a : Reader A) := by
  rintro input b rest ⟨⟩
  exact List.suffix_rfl

@[simp] theorem LeavesTail.fail (e : ReadError) : LeavesTail (fail e : Reader A) := by
  rintro input a rest ⟨⟩

theorem LeavesTail.bind {reader : Reader A} {next : A → Reader B} (first : LeavesTail reader)
    (second : ∀ a, LeavesTail (next a)) : LeavesTail (reader >>= next) := by
  intro input b rest read
  obtain ⟨a, left, readFirst, readSecond⟩ := bind_eq_ok_iff.1 read
  exact (second a left b rest readSecond).trans (first input a left readFirst)

theorem LeavesTail.discard {reader : Reader A} (leaves : LeavesTail reader) :
    LeavesTail (discard reader) :=
  .bind leaves fun _ => .pure _

theorem LeavesTail.ite {condition : Prop} [Decidable condition] {yes no : Reader A}
    (first : LeavesTail yes) (second : LeavesTail no) :
    LeavesTail (if condition then yes else no) := by
  split
  · exact first
  · exact second

@[simp] theorem LeavesTail.byte : LeavesTail byte := by
  intro input b rest read
  cases input with
  | nil => cases read
  | cons first later =>
    cases read
    exact List.suffix_cons b rest

@[simp] theorem LeavesTail.take (count : Nat) : LeavesTail (take count) := by
  intro input taken rest read
  obtain ⟨-, rfl⟩ := take_eq_ok read
  exact List.suffix_append taken rest

@[simp] theorem LeavesTail.natural (order : ByteOrder) (count : Nat) :
    LeavesTail (natural order count) :=
  .bind (.take count) fun _ => .pure _

@[simp] theorem LeavesTail.word32 (order : ByteOrder) : LeavesTail (word32 order) :=
  .bind (.natural order 4) fun _ => .pure _

theorem LeavesTail.word16 (order : ByteOrder) : LeavesTail (word16 order) :=
  .bind (.natural order 2) fun _ => .pure _

def TakesFront (reader : Reader A) : Prop :=
  ∀ input a rest, reader input = .ok (a, rest) →
    ∃ front, input = front ++ rest ∧ ∀ more, reader (front ++ more) = .ok (a, more)

theorem TakesFront.pure (a : A) : TakesFront (pure a : Reader A) := by
  rintro input b rest ⟨⟩
  exact ⟨[], rfl, fun _ => rfl⟩

theorem TakesFront.fail (e : ReadError) : TakesFront (fail e : Reader A) := by
  rintro input a rest ⟨⟩

theorem TakesFront.bind {reader : Reader A} {next : A → Reader B} (first : TakesFront reader)
    (second : ∀ a, TakesFront (next a)) : TakesFront (reader >>= next) := by
  intro input b rest read
  obtain ⟨a, left, readFirst, readSecond⟩ := bind_eq_ok_iff.1 read
  obtain ⟨front, rfl, again⟩ := first input a left readFirst
  obtain ⟨later, rfl, after⟩ := second a left b rest readSecond
  refine ⟨front ++ later, (List.append_assoc ..).symm, fun more => ?_⟩
  rw [List.append_assoc]
  exact bind_eq_ok_iff.2 ⟨a, later ++ more, again _, after more⟩

theorem TakesFront.take (count : Nat) : TakesFront (take count) := by
  intro input taken rest read
  obtain ⟨rfl, rfl⟩ := take_eq_ok read
  exact ⟨taken, rfl, take_append taken⟩

theorem TakesFront.natural (order : ByteOrder) (count : Nat) :
    TakesFront (natural order count) :=
  .bind (.take count) fun _ => .pure _

theorem natural_eq_ok {order : ByteOrder} {count n : Nat} {input rest : List UInt8}
    (read : natural order count input = .ok (n, rest)) : input.length = count + rest.length := by
  obtain ⟨taken, left, readTaken, made⟩ := bind_eq_ok_iff.1 read
  obtain ⟨-, rfl⟩ := Prod.mk.inj (Except.ok.inj made)
  obtain ⟨rfl, rfl⟩ := take_eq_ok readTaken
  exact List.length_append

end Reader

namespace Leb128

open Reader

theorem unsignedFrom_leavesTail (index : Nat) : LeavesTail (unsignedFrom index) := by
  intro input n rest read
  induction input generalizing index n rest with
  | nil => cases read
  | cons byte later ih =>
    rw [unsignedFrom] at read
    split at read
    · cases read
    split at read
    · cases read
      exact List.suffix_cons byte later
    split at read
    · cases read
    next high left result =>
      cases read
      exact (ih (index + 1) high rest result).trans (List.suffix_cons byte later)

theorem signedFrom_leavesTail (index : Nat) : LeavesTail (signedFrom index) := by
  intro input n rest read
  induction input generalizing index n rest with
  | nil => cases read
  | cons byte later ih =>
    rw [signedFrom] at read
    split at read
    · cases read
    split at read
    · cases read
      exact List.suffix_cons byte later
    split at read
    · cases read
    next high left result =>
      cases read
      exact (ih (index + 1) high rest result).trans (List.suffix_cons byte later)

@[simp] theorem unsigned_leavesTail : LeavesTail unsigned := unsignedFrom_leavesTail 0

@[simp] theorem signed_leavesTail : LeavesTail signed := signedFrom_leavesTail 0

@[simp] theorem unsigned32_leavesTail : LeavesTail unsigned32 := by
  refine .bind unsigned_leavesTail fun n => ?_
  split
  · exact .pure _
  · exact .fail _

end Leb128

end SourceScope
