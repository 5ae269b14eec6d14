set_option autoImplicit false

namespace SourceScope

inductive ByteOrder where
  | little
  | big
deriving DecidableEq, Repr, Inhabited

namespace ByteOrder

def leastFirst : List UInt8 → Nat
  | [] => 0
  | byte :: rest => byte.toNat + 256 * leastFirst rest

def digits : Nat → Nat → List UInt8
  | 0, _ => []
  | count + 1, n => UInt8.ofNat n :: digits count (n / 256)

def value : ByteOrder → List UInt8 → Nat
  | .little, bytes => leastFirst bytes
  | .big, bytes => leastFirst bytes.reverse

def encode : ByteOrder → Nat → Nat → List UInt8
  | .little, count, n => digits count n
  | .big, count, n => (digits count n).reverse

def capacity : (count : Nat) → Nat
  | 0 => 1
  | count + 1 => 256 * capacity count

theorem length_digits (count n : Nat) : (digits count n).length = count := by
  induction count generalizing n with
  | zero => rfl
  | succ count ih => simp [digits, ih]

theorem leastFirst_digits (count n : Nat) : leastFirst (digits count n) = n % capacity count := by
  induction count generalizing n with
  | zero => simp [digits, leastFirst, capacity, Nat.mod_one]
  | succ count ih =>
    have byte : (UInt8.ofNat n).toNat = n % 256 := by simp
    rw [digits, leastFirst, ih, byte, capacity, Nat.mod_mul]

theorem digits_cons (count : Nat) (byte : UInt8) (rest : List UInt8) :
    digits (count + 1) (leastFirst (byte :: rest)) = byte :: digits count (leastFirst rest) := by
  have bound := byte.toNat_lt
  have high : (byte.toNat + 256 * leastFirst rest) / 256 = leastFirst rest := by omega
  have low : UInt8.ofNat (byte.toNat + 256 * leastFirst rest) = byte := by
    rw [← UInt8.toNat_inj, UInt8.toNat_ofNat']
    omega
  rw [leastFirst, digits, high, low]

theorem digits_leastFirst (bytes : List UInt8) :
    digits bytes.length (leastFirst bytes) = bytes := by
  induction bytes with
  | nil => rfl
  | cons byte rest ih => rw [List.length_cons, digits_cons, ih]

theorem digits_mod (count n : Nat) : digits count (n % capacity count) = digits count n := by
  have same := digits_leastFirst (digits count n)
  rwa [length_digits, leastFirst_digits] at same

theorem capacity_pos (count : Nat) : 0 < capacity count := by
  induction count with
  | zero => exact Nat.one_pos
  | succ count ih => exact Nat.mul_pos (by decide) ih

theorem leastFirst_lt (bytes : List UInt8) : leastFirst bytes < capacity bytes.length := by
  have same := leastFirst_digits bytes.length (leastFirst bytes)
  rw [digits_leastFirst] at same
  rw [same]
  exact Nat.mod_lt _ (capacity_pos _)

@[simp] theorem length_encode (order : ByteOrder) (count n : Nat) :
    (order.encode count n).length = count := by
  cases order <;> simp [encode, length_digits]

@[simp] theorem value_encode (order : ByteOrder) (count n : Nat) :
    order.value (order.encode count n) = n % capacity count := by
  cases order <;> simp [encode, value, leastFirst_digits]

@[simp] theorem encode_value (order : ByteOrder) (bytes : List UInt8) :
    order.encode bytes.length (order.value bytes) = bytes := by
  cases order with
  | little => exact digits_leastFirst bytes
  | big =>
    have same := digits_leastFirst bytes.reverse
    rw [List.length_reverse] at same
    rw [encode, value, same, List.reverse_reverse]

def bytes16 (order : ByteOrder) (word : UInt16) : List UInt8 := order.encode 2 word.toNat

def bytes32 (order : ByteOrder) (word : UInt32) : List UInt8 := order.encode 4 word.toNat

end ByteOrder

end SourceScope
