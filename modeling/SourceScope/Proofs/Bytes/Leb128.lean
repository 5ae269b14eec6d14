import SourceScope.Bytes.Leb128

set_option autoImplicit false

namespace SourceScope.Leb128

inductive UnsignedForm : Nat → List UInt8 → Prop where
  | last (byte : UInt8) (final : byte.toNat < 128) : UnsignedForm byte.toNat [byte]
  | more (byte : UInt8) (n : Nat) (rest : List UInt8) (continues : 128 ≤ byte.toNat)
      (tail : UnsignedForm n rest) : UnsignedForm (lowBits byte + 128 * n) (byte :: rest)

inductive SignedForm : Int → List UInt8 → Prop where
  | positive (byte : UInt8) (final : byte.toNat < 64) : SignedForm byte.toNat [byte]
  | negative (byte : UInt8) (sign : 64 ≤ byte.toNat) (final : byte.toNat < 128) :
      SignedForm (byte.toNat - 128) [byte]
  | more (byte : UInt8) (n : Int) (rest : List UInt8) (continues : 128 ≤ byte.toNat)
      (tail : SignedForm n rest) : SignedForm (lowBits byte + 128 * n) (byte :: rest)

structure Unsigned64 (n : Nat) (bytes : List UInt8) : Prop where
  form : UnsignedForm n bytes
  short : bytes.length ≤ 10
  fits : n < UInt64.size

structure Signed64 (n : Int) (bytes : List UInt8) : Prop where
  form : SignedForm n bytes
  short : bytes.length ≤ 10
  least : -0x8000000000000000 ≤ n
  most : n < 0x8000000000000000

def capacity : (before : Nat) → Nat
  | 0 => 2
  | before + 1 => 128 * capacity before

theorem unsignedFrom_form {n : Nat} {bytes : List UInt8} (form : UnsignedForm n bytes)
    (index before : Nat) (rest : List UInt8) (all : index + before = 9)
    (short : bytes.length ≤ before + 1) (fits : n < capacity before) :
    unsignedFrom index (bytes ++ rest) = .ok (n, rest) := by
  induction form generalizing index before with
  | last byte final =>
    have allowed : ¬(index = 9 ∧ byte ≠ 0 ∧ byte ≠ 1) := by
      rintro ⟨rfl, nonzero, notOne⟩
      obtain rfl : before = 0 := by omega
      simp only [capacity] at fits
      rw [Ne, ← UInt8.toNat_inj] at nonzero notOne
      change ¬byte.toNat = 0 at nonzero
      change ¬byte.toNat = 1 at notOne
      omega
    rw [List.singleton_append, unsignedFrom, if_neg allowed, if_pos final]
  | more byte n tail continues form ih =>
    have nonempty : 0 < tail.length := by cases form <;> simp
    rw [List.length_cons] at short
    obtain ⟨before, rfl⟩ : ∃ later, before = later + 1 := ⟨before - 1, by omega⟩
    rw [capacity] at fits
    rw [List.cons_append, unsignedFrom, if_neg (by omega), if_neg (by omega),
      ih (index + 1) before (by omega) (by omega) (by omega)]

-- Half of what fits is negative.
def signedCapacity : (before : Nat) → Int
  | 0 => 1
  | before + 1 => 128 * signedCapacity before

theorem signedFrom_form {n : Int} {bytes : List UInt8} (form : SignedForm n bytes)
    (index before : Nat) (rest : List UInt8) (all : index + before = 9)
    (short : bytes.length ≤ before + 1) (least : -signedCapacity before ≤ n)
    (most : n < signedCapacity before) :
    signedFrom index (bytes ++ rest) = .ok (n, rest) := by
  induction form generalizing index before with
  | positive byte final =>
    have allowed : ¬(index = 9 ∧ byte ≠ 0 ∧ byte ≠ 0x7f) := by
      rintro ⟨rfl, nonzero, -⟩
      obtain rfl : before = 0 := by omega
      simp only [signedCapacity] at most
      rw [Ne, ← UInt8.toNat_inj] at nonzero
      change ¬byte.toNat = 0 at nonzero
      omega
    rw [List.singleton_append, signedFrom, if_neg allowed, if_pos (by omega), if_pos final]
  | negative byte sign final =>
    have allowed : ¬(index = 9 ∧ byte ≠ 0 ∧ byte ≠ 0x7f) := by
      rintro ⟨rfl, -, notOnes⟩
      obtain rfl : before = 0 := by omega
      simp only [signedCapacity] at least
      rw [Ne, ← UInt8.toNat_inj] at notOnes
      change ¬byte.toNat = 127 at notOnes
      omega
    rw [List.singleton_append, signedFrom, if_neg allowed, if_pos final, if_neg (by omega)]
  | more byte n tail continues form ih =>
    have nonempty : 0 < tail.length := by cases form <;> simp
    have low : lowBits byte < 128 := Nat.mod_lt _ (by decide)
    rw [List.length_cons] at short
    obtain ⟨before, rfl⟩ : ∃ later, before = later + 1 := ⟨before - 1, by omega⟩
    rw [signedCapacity] at least most
    rw [List.cons_append, signedFrom, if_neg (by omega), if_neg (by omega),
      ih (index + 1) before (by omega) (by omega) (by omega) (by omega)]

theorem unsigned_read {n : Nat} {bytes : List UInt8} (written : Unsigned64 n bytes)
    (rest : List UInt8) : unsigned (bytes ++ rest) = .ok (n, rest) :=
  unsignedFrom_form written.form 0 9 rest rfl written.short written.fits

theorem signed_read {n : Int} {bytes : List UInt8} (written : Signed64 n bytes)
    (rest : List UInt8) : signed (bytes ++ rest) = .ok (n, rest) :=
  signedFrom_form written.form 0 9 rest rfl written.short written.least written.most

theorem encodeUnsigned_form (n : Nat) : UnsignedForm n (encodeUnsigned n) := by
  induction n using Nat.strongRecOn with
  | _ n ih =>
    rw [encodeUnsigned]
    split
    next small =>
      have byte : (UInt8.ofNat n).toNat = n := by simp; omega
      have form := UnsignedForm.last (UInt8.ofNat n) (by omega)
      rwa [byte] at form
    next large =>
      have byte : (UInt8.ofNat (n % 128 + 128)).toNat = n % 128 + 128 := by simp; omega
      have form := UnsignedForm.more (UInt8.ofNat (n % 128 + 128)) (n / 128) _ (by omega)
        (ih (n / 128) (by omega))
      have same : lowBits (UInt8.ofNat (n % 128 + 128)) + 128 * (n / 128) = n := by
        rw [lowBits, byte]
        omega
      rwa [same] at form

theorem length_encodeUnsigned {n before : Nat} (fits : n < capacity before) :
    (encodeUnsigned n).length ≤ before + 1 := by
  induction before generalizing n with
  | zero =>
    rw [capacity] at fits
    rw [encodeUnsigned, if_pos (by omega)]
    simp
  | succ before ih =>
    rw [encodeUnsigned]
    split
    · simp
    · have shorter := @ih (n / 128) (Nat.div_lt_of_lt_mul fits)
      rw [List.length_cons]
      omega

theorem Unsigned64.single (byte : UInt8) (final : byte.toNat < 128) :
    Unsigned64 byte.toNat [byte] :=
  ⟨.last byte final, by simp, Nat.lt_trans byte.toNat_lt (by decide)⟩

theorem Unsigned64.shortest {n : Nat} (fits : n < UInt64.size) :
    Unsigned64 n (encodeUnsigned n) :=
  ⟨encodeUnsigned_form n, @length_encodeUnsigned n 9 fits, fits⟩

theorem encodeSigned_form (n : Int) : SignedForm n (encodeSigned n) := by
  fun_induction encodeSigned n with
  | case1 n small =>
    have byte : (UInt8.ofNat (n % 128).toNat).toNat = (n % 128).toNat := by simp; omega
    by_cases negative : n < 0
    · have form := SignedForm.negative (UInt8.ofNat (n % 128).toNat) (by omega) (by omega)
      have same : ((UInt8.ofNat (n % 128).toNat).toNat - 128 : Int) = n := by omega
      rwa [same] at form
    · have form := SignedForm.positive (UInt8.ofNat (n % 128).toNat) (by omega)
      have same : ((UInt8.ofNat (n % 128).toNat).toNat : Int) = n := by omega
      rwa [same] at form
  | case2 n large ih =>
    have byte : (UInt8.ofNat ((n % 128).toNat + 128)).toNat = (n % 128).toNat + 128 := by
      simp; omega
    have form := SignedForm.more (UInt8.ofNat ((n % 128).toNat + 128)) (n / 128) _ (by omega) ih
    have same : (lowBits (UInt8.ofNat ((n % 128).toNat + 128)) + 128 * (n / 128) : Int) = n := by
      rw [lowBits, byte]
      omega
    rwa [same] at form

theorem length_encodeSigned {n : Int} {before : Nat} (least : -signedCapacity before ≤ n)
    (most : n < signedCapacity before) : (encodeSigned n).length ≤ before + 1 := by
  induction before generalizing n with
  | zero =>
    rw [signedCapacity] at least most
    rw [encodeSigned, if_pos (by omega)]
    simp
  | succ before ih =>
    rw [signedCapacity] at least most
    rw [encodeSigned]
    split
    · simp
    · have shorter := @ih (n / 128) (by omega) (by omega)
      rw [List.length_cons]
      omega

theorem Signed64.shortest {n : Int} (least : -0x8000000000000000 ≤ n)
    (most : n < 0x8000000000000000) : Signed64 n (encodeSigned n) :=
  ⟨encodeSigned_form n, @length_encodeSigned n 9 least most, least, most⟩

end SourceScope.Leb128
