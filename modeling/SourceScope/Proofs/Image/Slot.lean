import SourceScope.Image.Relocation
import SourceScope.Proofs.Bytes.Reader

set_option autoImplicit false

namespace SourceScope

theorem slice?_eq_some_iff (data : List UInt8) (offset size : Nat) (found : List UInt8) :
    slice? data offset size = some found ↔
      offset + size ≤ data.length ∧ found = (data.drop offset).take size := by
  unfold slice?
  simp only [Option.ite_none_left_eq_some, Option.ite_none_right_eq_some, Option.some.injEq,
    List.length_take, List.length_drop]
  constructor
  · rintro ⟨inside, full, rfl⟩
    exact ⟨by omega, rfl⟩
  · rintro ⟨inside, rfl⟩
    exact ⟨by omega, by omega, rfl⟩

theorem length_patch {data : List UInt8} {offset : Nat} {word : List UInt8}
    (inside : offset + word.length ≤ data.length) :
    (patch data offset word).length = data.length := by
  simp only [patch, List.length_append, List.length_take, List.length_drop]
  omega

theorem getElem?_patch {data : List UInt8} {offset : Nat} {word : List UInt8}
    (inside : offset + word.length ≤ data.length) (n : Nat) :
    (patch data offset word)[n]? =
      if offset ≤ n ∧ n < offset + word.length then word[n - offset]? else data[n]? := by
  have front : (data.take offset).length = offset := by
    rw [List.length_take]
    omega
  unfold patch
  by_cases before : n < offset
  · rw [if_neg (by omega), List.append_assoc, List.getElem?_append_left (by omega),
      List.getElem?_take_of_lt before]
  · by_cases within : n < offset + word.length
    · rw [if_pos (by omega), List.append_assoc, List.getElem?_append_right (by omega),
        List.getElem?_append_left (by omega), front]
    · rw [if_neg (by omega), List.getElem?_append_right (by simp; omega), List.getElem?_drop]
      congr 1
      simp only [List.length_append, front]
      omega

def wordAt? (order : ByteOrder) (data : List UInt8) (offset : Nat) : Option UInt32 :=
  (slice? data offset 4).map fun slot => UInt32.ofNat (order.value slot)

theorem wordAt?_congr {order : ByteOrder} {a b : List UInt8} {offset : Nat}
    (length : a.length = b.length)
    (same : ∀ n, offset ≤ n → n < offset + 4 → a[n]? = b[n]?) :
    wordAt? order a offset = wordAt? order b offset := by
  have slots : (a.drop offset).take 4 = (b.drop offset).take 4 := by
    apply List.ext_getElem?
    intro n
    by_cases within : n < 4
    · simp only [List.getElem?_take_of_lt within, List.getElem?_drop]
      exact same (offset + n) (by omega) (by omega)
    · simp [List.getElem?_take_eq_none (Nat.not_lt.1 within)]
  simp only [wordAt?, slice?, length, slots]

theorem wordAt?_patch_self (order : ByteOrder) {data : List UInt8} {offset : Nat} (word : UInt32)
    (inside : offset + 4 ≤ data.length) :
    wordAt? order (patch data offset (order.bytes32 word)) offset = some word := by
  have four : (order.bytes32 word).length = 4 := ByteOrder.length_encode order 4 _
  have front : (data.take offset).length = offset := by
    rw [List.length_take]
    omega
  have written : ((patch data offset (order.bytes32 word)).drop offset).take 4 =
      order.bytes32 word := by
    rw [patch, List.append_assoc, List.drop_left' front, List.take_left' four]
  have length : (patch data offset (order.bytes32 word)).length = data.length :=
    length_patch (by omega)
  have slot := (slice?_eq_some_iff _ offset 4 _).2 ⟨by omega, written.symm⟩
  rw [wordAt?, slot, Option.map_some, ByteOrder.ofNat_value_bytes32]

def Relocation.Misses (r : Relocation) (size offset : Nat) : Prop :=
  r.offset + 4 ≤ size → offset + 4 ≤ r.offset ∨ r.offset + 4 ≤ offset

section

variable (order : ByteOrder) (addressOf : Position → UInt32) {data : List UInt8} {r : Relocation}

theorem length_apply (data : List UInt8) (r : Relocation) :
    (r.apply order addressOf data).length = data.length := by
  cases found : slice? data r.offset 4 with
  | none => simp [Relocation.apply, found]
  | some slot =>
    have inside := ((slice?_eq_some_iff data r.offset 4 slot).1 found).1
    simp only [Relocation.apply, found]
    apply length_patch
    rwa [ByteOrder.bytes32, ByteOrder.length_encode]

theorem apply_outside (outside : ¬r.offset + 4 ≤ data.length) :
    r.apply order addressOf data = data := by
  have absent : slice? data r.offset 4 = none := by
    refine Option.eq_none_iff_forall_ne_some.2 fun slot found => outside ?_
    exact ((slice?_eq_some_iff data r.offset 4 slot).1 found).1
  simp only [Relocation.apply, absent]

theorem getElem?_apply {n : Nat}
    (beside : r.offset + 4 ≤ data.length → n < r.offset ∨ r.offset + 4 ≤ n) :
    (r.apply order addressOf data)[n]? = data[n]? := by
  cases found : slice? data r.offset 4 with
  | none => simp only [Relocation.apply, found]
  | some slot =>
    have inside := ((slice?_eq_some_iff data r.offset 4 slot).1 found).1
    have four (word : UInt32) : (order.bytes32 word).length = 4 := ByteOrder.length_encode order 4 _
    have apart := beside inside
    simp only [Relocation.apply, found]
    rw [getElem?_patch (by rw [four]; exact inside), four, if_neg (by omega)]

theorem wordAt?_apply_self {word : UInt32} (held : wordAt? order data r.offset = some word) :
    wordAt? order (r.apply order addressOf data) r.offset =
      some (addressOf r.target + r.addend.getD word) := by
  obtain ⟨slot, found, rfl⟩ := Option.map_eq_some_iff.1 held
  have inside := ((slice?_eq_some_iff data r.offset 4 slot).1 found).1
  simp only [Relocation.apply, found]
  exact wordAt?_patch_self order _ inside

end

namespace Image

variable (image : Image) (placement : Placement)

theorem relocated_cons (r : Relocation) (rest : List Relocation) (bytes : List UInt8) :
    image.relocated placement (r :: rest) bytes =
      image.relocated placement rest (r.apply image.order (image.loadAddress placement) bytes) := rfl

theorem relocated_append (first second : List Relocation) (bytes : List UInt8) :
    image.relocated placement (first ++ second) bytes =
      image.relocated placement second (image.relocated placement first bytes) :=
  List.foldl_append

theorem length_relocated (relocations : List Relocation) (bytes : List UInt8) :
    (image.relocated placement relocations bytes).length = bytes.length := by
  induction relocations generalizing bytes with
  | nil => rfl
  | cons r rest ih => rw [relocated_cons, ih, length_apply]

theorem getElem?_relocated (relocations : List Relocation) {bytes : List UInt8} {n : Nat}
    (beside : ∀ r ∈ relocations, r.offset + 4 ≤ bytes.length → n < r.offset ∨ r.offset + 4 ≤ n) :
    (image.relocated placement relocations bytes)[n]? = bytes[n]? := by
  induction relocations generalizing bytes with
  | nil => rfl
  | cons r rest ih =>
    obtain ⟨first, later⟩ := List.forall_mem_cons.1 beside
    rw [relocated_cons, ih, getElem?_apply image.order _ first]
    rwa [length_apply]

theorem wordAt?_relocated_of_misses (relocations : List Relocation) {bytes : List UInt8}
    {offset : Nat} (misses : ∀ r ∈ relocations, r.Misses bytes.length offset) :
    wordAt? image.order (image.relocated placement relocations bytes) offset =
      wordAt? image.order bytes offset := by
  refine wordAt?_congr (length_relocated image placement relocations bytes) fun n after before => ?_
  refine getElem?_relocated image placement relocations fun r member inside => ?_
  have apart := misses r member inside
  omega

end Image

end SourceScope
