import Mathlib.Tactic.IntervalCases
import SourceScope.Location.Expression
import SourceScope.Proofs.Bytes.Reader
import SourceScope.Proofs.Bytes.Leb128

set_option autoImplicit false

namespace SourceScope.Location

open Leb128

def plainForms : List (UInt8 × Operation) :=
  [(0x06, .deref 4), (0x12, .pick 0), (0x13, .drop), (0x14, .pick 1), (0x16, .swap), (0x17, .rot),
    (0x19, .unary .abs), (0x1a, .binary .and), (0x1b, .binary .div), (0x1c, .binary .minus),
    (0x1d, .binary .mod), (0x1e, .binary .mul), (0x1f, .unary .neg), (0x20, .unary .not),
    (0x21, .binary .or), (0x22, .binary .plus), (0x24, .binary .shl), (0x25, .binary .shr),
    (0x26, .binary .shra), (0x27, .binary .xor), (0x29, .binary .eq), (0x2a, .binary .ge),
    (0x2b, .binary .gt), (0x2c, .binary .le), (0x2d, .binary .lt), (0x2e, .binary .ne),
    (0x96, .nop), (0x9c, .callFrameAddress), (0x9f, .stackValue)]

-- Opcodes of constants, and how many bytes follow.
def unsignedForms : List (UInt8 × Nat) := [(0x03, 4), (0x08, 1), (0x0a, 2), (0x0c, 4), (0x0e, 8)]

def signedForms : List (UInt8 × Nat) := [(0x09, 1), (0x0b, 2), (0x0d, 4), (0x0f, 8)]

/-- One way to write an operation. Numbers of variable length may be padded, and constants may be
wider than a word. -/
inductive Spelling where
  | plain (opcode : UInt8) (operation : Operation) (known : (opcode, operation) ∈ plainForms)
  | literal (n : Nat) (small : n < 32)
  | unsigned (opcode : UInt8) (width : Nat) (known : (opcode, width) ∈ unsignedForms) (n : Nat)
      (fits : n < ByteOrder.capacity width)
  | signed (opcode : UInt8) (width : Nat) (known : (opcode, width) ∈ signedForms) (n : Int)
      (least : -ByteOrder.capacity width ≤ 2 * n) (most : 2 * n < ByteOrder.capacity width)
  | unsignedLeb {n : Nat} {digits : List UInt8} (constant : Unsigned64 n digits)
  | signedLeb {n : Int} {digits : List UInt8} (constant : Signed64 n digits)
  | plusConst {n : Nat} {digits : List UInt8} (constant : Unsigned64 n digits)
  | shortRegister (register : Nat) (small : register < 32)
  | register {r : Nat} {digits : List UInt8} (register : Unsigned64 r digits) (narrow : r < 65536)
  | shortRegisterOffset (register : Nat) (small : register < 32) {n : Int} {digits : List UInt8}
      (offset : Signed64 n digits)
  | registerOffset {r : Nat} {first : List UInt8} (register : Unsigned64 r first)
      (narrow : r < 65536) {n : Int} {second : List UInt8} (offset : Signed64 n second)
  | frameOffset {n : Int} {digits : List UInt8} (offset : Signed64 n digits)
  | pick (depth : UInt8)
  | derefSize (size : UInt8)
  | piece {n : Nat} {digits : List UInt8} (size : Unsigned64 n digits) (narrow : n < UInt32.size)
  | branch (target : Int16)
  | skip (target : Int16)
  | implicitValue {digits : List UInt8} (length : Unsigned64 4 digits) (value : UInt32)

namespace Spelling

def operation : Spelling → Operation
  | plain _ operation _ => operation
  | literal n _ | unsigned _ _ _ n _ | @unsignedLeb n _ _ => .const (UInt32.ofNat n)
  | signed _ _ _ n _ _ | @signedLeb n _ _ => .const (UInt32.ofInt n)
  | @plusConst n _ _ => .plusConst (UInt32.ofNat n)
  | shortRegister r _ | @register r _ _ _ => .register (UInt16.ofNat r)
  | @shortRegisterOffset r _ n _ _ | @registerOffset r _ _ _ n _ _ =>
    .registerOffset (UInt16.ofNat r) (Int32.ofInt n)
  | @frameOffset n _ _ => .frameOffset (Int32.ofInt n)
  | pick depth => .pick depth
  | derefSize size => .deref size
  | @piece n _ _ _ => .piece (UInt32.ofNat n)
  | branch target => .branch target
  | skip target => .skip target
  | implicitValue _ value => .implicitValue value

def front : Spelling → List UInt8
  | plain opcode _ _ | unsigned opcode _ _ _ _ | signed opcode _ _ _ _ _ => [opcode]
  | literal n _ => [UInt8.ofNat (0x30 + n)]
  | @unsignedLeb _ digits _ => 0x10 :: digits
  | @signedLeb _ digits _ => 0x11 :: digits
  | pick depth => [0x15, depth]
  | @plusConst _ digits _ => 0x23 :: digits
  | branch _ => [0x28]
  | skip _ => [0x2f]
  | shortRegister r _ => [UInt8.ofNat (0x50 + r)]
  | @shortRegisterOffset r _ _ digits _ => UInt8.ofNat (0x70 + r) :: digits
  | @register _ digits _ _ => 0x90 :: digits
  | @frameOffset _ digits _ => 0x91 :: digits
  | @registerOffset _ first _ _ _ second _ => 0x92 :: (first ++ second)
  | @piece _ digits _ _ => 0x93 :: digits
  | derefSize size => [0x94, size]
  | @implicitValue digits _ _ => 0x9e :: digits

def fixed : Spelling → Nat × Nat
  | unsigned _ width _ n _ => (width, n)
  | signed _ width _ n _ _ => (width, (n % ByteOrder.capacity width).toNat)
  | branch target | skip target => (2, target.toUInt16.toNat)
  | implicitValue _ value => (4, value.toNat)
  | _ => (0, 0)

def bytes (order : ByteOrder) (s : Spelling) : List UInt8 :=
  s.front ++ order.encode s.fixed.1 s.fixed.2

theorem front_cons (s : Spelling) : ∃ opcode operands, s.front = opcode :: operands := by
  cases s <;> exact ⟨_, _, rfl⟩

end Spelling

def encoded (order : ByteOrder) (code : List Spelling) : List UInt8 :=
  code.flatMap (·.bytes order)

namespace Operation

open Reader

theorem reader_cons (opcode : UInt8) (input : List UInt8) :
    reader (opcode :: input) = operands opcode.toNat input := rfl

theorem reader_of_operands {A : Type} (opcode : UInt8) {operand : Reader A}
    {next : A → Reader Decoded} {input rest : List UInt8} {a : A}
    (opens : operands opcode.toNat = operand >>= next) (read : operand input = .ok (a, rest)) :
    reader (opcode :: input) = next a rest := by
  rw [reader_cons, opens]
  exact bind_ok read next

theorem operands_plain : ∀ form ∈ plainForms, operands form.1.toNat = found form.2 := by
  simp only [plainForms, List.forall_mem_cons, List.not_mem_nil, false_implies,
    implies_true, and_true]
  and_intros <;> rfl

theorem operands_unsigned :
    ∀ form ∈ unsignedForms, operands form.1.toNat = unsignedConstant form.2 := by
  simp only [unsignedForms, List.forall_mem_cons, List.not_mem_nil, false_implies,
    implies_true, and_true]
  and_intros <;> rfl

theorem operands_signed : ∀ form ∈ signedForms, operands form.1.toNat = signedConstant form.2 := by
  simp only [signedForms, List.forall_mem_cons, List.not_mem_nil, false_implies,
    implies_true, and_true]
  and_intros <;> rfl

theorem operands_literal {n : Nat} (small : n < 32) :
    operands (UInt8.ofNat (0x30 + n)).toNat = found (.const (UInt32.ofNat n)) := by
  interval_cases n <;> rfl

theorem operands_shortRegister {r : Nat} (small : r < 32) :
    operands (UInt8.ofNat (0x50 + r)).toNat = found (.register (UInt16.ofNat r)) := by
  interval_cases r <;> rfl

theorem operands_shortRegisterOffset {r : Nat} (small : r < 32) :
    operands (UInt8.ofNat (0x70 + r)).toNat =
      (do found (.registerOffset (UInt16.ofNat r) (← signedOperand))) := by
  interval_cases r <;> rfl

theorem constant_natural (n : Nat) : constant n = found (.const (UInt32.ofNat n)) := by
  have same : ((n : Int) % 2 ^ 32).toNat = n % 2 ^ 32 := by omega
  rw [constant, UInt32.ofInt, same]
  exact congrArg (found <| .const ·) UInt32.ofNat_mod_size

theorem signedOf_twosComplement {width : Nat} {n : Int}
    (least : -ByteOrder.capacity width ≤ 2 * n) (most : 2 * n < ByteOrder.capacity width) :
    signedOf width (n % ByteOrder.capacity width).toNat = n := by
  have nonneg : 0 ≤ n % ByteOrder.capacity width := Int.emod_nonneg _ (by omega)
  rw [signedOf, Int.toNat_of_nonneg nonneg, Int.emod_bmod]
  exact Int.bmod_eq_of_le (by omega) (by omega)

theorem registerNumber_read {r : Nat} {digits : List UInt8} (register : Unsigned64 r digits)
    (narrow : r < 65536) (rest : List UInt8) :
    registerNumber (digits ++ rest) = .ok (UInt16.ofNat r, rest) := by
  refine (bind_ok (unsigned_read register rest) _).trans ?_
  rw [if_pos narrow]
  rfl

theorem signedOperand_read {n : Int} {digits : List UInt8} (offset : Signed64 n digits)
    (rest : List UInt8) : signedOperand (digits ++ rest) = .ok (Int32.ofInt n, rest) :=
  map_ok (signed_read offset rest) _

theorem branchTarget_read (target : Int16) (rest : List UInt8) :
    branchTarget (ByteOrder.little.encode 2 target.toUInt16.toNat ++ rest) =
      .ok (target, rest) := by
  have fits : target.toUInt16.toNat < ByteOrder.capacity 2 := target.toUInt16.toNat_lt
  refine (map_ok (natural_encode fits rest) fun n => Int16.ofInt n).trans ?_
  rw [Int16.ofInt_eq_ofNat, ← UInt16.toInt16_ofNat', UInt16.ofNat_toNat, Int16.toInt16_toUInt16]

theorem block_read {data digits : List UInt8} (length : Unsigned64 data.length digits)
    (rest : List UInt8) : block (digits ++ (data ++ rest)) = .ok (data, rest) :=
  (bind_ok (unsigned_read length _) _).trans (take_append data rest)

theorem reader_spelling (s : Spelling) (rest : List UInt8) :
    reader (s.bytes .little ++ rest) = .ok (.ok s.operation, rest) := by
  rw [Spelling.bytes, List.append_assoc]
  cases s with
  | plain opcode operation known =>
    have read := operands_plain _ known
    exact congrFun read rest
  | literal n small => exact congrFun (operands_literal small) rest
  | shortRegister r small => exact congrFun (operands_shortRegister small) rest
  | unsigned opcode width known n fits =>
    have read := operands_unsigned _ known
    refine (reader_of_operands opcode read (natural_encode fits rest)).trans ?_
    rw [constant_natural]
    rfl
  | signed opcode width known n least most =>
    have read := operands_signed _ known
    have below := Int.emod_lt_of_pos n (show (0 : Int) < ByteOrder.capacity width by omega)
    have fits : (n % ByteOrder.capacity width).toNat < ByteOrder.capacity width := by omega
    refine (reader_of_operands opcode read (natural_encode fits rest)).trans ?_
    rw [signedOf_twosComplement least most]
    rfl
  | unsignedLeb constant =>
    refine (reader_of_operands 0x10 rfl (unsigned_read constant rest)).trans ?_
    rw [constant_natural]
    rfl
  | signedLeb constant => exact reader_of_operands 0x11 rfl (signed_read constant rest)
  | plusConst constant => exact reader_of_operands 0x23 rfl (unsigned_read constant rest)
  | register register narrow =>
    exact reader_of_operands 0x90 rfl (registerNumber_read register narrow rest)
  | shortRegisterOffset r small offset =>
    exact reader_of_operands _ (operands_shortRegisterOffset small) (signedOperand_read offset rest)
  | registerOffset register narrow offset =>
    rw [Spelling.front, List.cons_append, List.append_assoc]
    refine (reader_of_operands 0x92 rfl (registerNumber_read register narrow _)).trans ?_
    exact bind_ok (signedOperand_read offset rest) _
  | frameOffset offset => exact reader_of_operands 0x91 rfl (signedOperand_read offset rest)
  | pick depth => rfl
  | derefSize size => rfl
  | piece size narrow => exact reader_of_operands 0x93 rfl (unsigned_read size rest)
  | branch target => exact reader_of_operands 0x28 rfl (branchTarget_read target rest)
  | skip target => exact reader_of_operands 0x2f rfl (branchTarget_read target rest)
  | implicitValue length value =>
    have word : literalWord (ByteOrder.little.encode 4 value.toNat) = value :=
      ByteOrder.little.ofNat_value_bytes32 value
    have four : (ByteOrder.little.encode 4 value.toNat).length = 4 := ByteOrder.length_encode _ _ _
    rw [← four] at length
    refine (reader_of_operands 0x9e rfl (block_read length rest)).trans ?_
    rw [word]
    rfl

end Operation

theorem Spelling.exists_plain {operation : Operation}
    (known : ∃ form ∈ plainForms, form.2 = operation) :
    ∃ s : Spelling, s.operation = operation := by
  obtain ⟨form, listed, rfl⟩ := known
  exact ⟨.plain form.1 form.2 listed, rfl⟩

theorem Spelling.exists_spelling (operation : Operation) :
    ∃ s : Spelling, s.operation = operation := by
  have shortest (offset : Int32) : Signed64 offset.toInt (encodeSigned offset.toInt) := by
    have least := offset.le_toInt
    have most := offset.toInt_lt
    exact Signed64.shortest (by omega) (by omega)
  have narrow {n : Nat} (fits : n < UInt32.size) : Unsigned64 n (encodeUnsigned n) :=
    Unsigned64.shortest (Nat.lt_trans fits (by decide))
  have number (r : UInt16) : Unsigned64 r.toNat (encodeUnsigned r.toNat) :=
    narrow (Nat.lt_trans r.toNat_lt (by decide))
  cases operation with
  | const value =>
    refine ⟨.unsigned 0x0c 4 (by decide) value.toNat value.toNat_lt, ?_⟩
    simp only [Spelling.operation, UInt32.ofNat_toNat]
  | register r =>
    refine ⟨.register (number r) r.toNat_lt, ?_⟩
    simp only [Spelling.operation, UInt16.ofNat_toNat]
  | registerOffset r offset =>
    refine ⟨.registerOffset (number r) r.toNat_lt (shortest offset), ?_⟩
    simp only [Spelling.operation, UInt16.ofNat_toNat, Int32.ofInt_toInt]
  | frameOffset offset =>
    refine ⟨.frameOffset (shortest offset), ?_⟩
    simp only [Spelling.operation, Int32.ofInt_toInt]
  | plusConst value =>
    refine ⟨.plusConst (narrow value.toNat_lt), ?_⟩
    simp only [Spelling.operation, UInt32.ofNat_toNat]
  | piece size =>
    refine ⟨.piece (narrow size.toNat_lt) size.toNat_lt, ?_⟩
    simp only [Spelling.operation, UInt32.ofNat_toNat]
  | deref size => exact ⟨.derefSize size, rfl⟩
  | pick depth => exact ⟨.pick depth, rfl⟩
  | branch target => exact ⟨.branch target, rfl⟩
  | skip target => exact ⟨.skip target, rfl⟩
  | implicitValue value => exact ⟨.implicitValue (narrow (by decide)) value, rfl⟩
  | unary operator => exact exists_plain (by cases operator <;> decide)
  | binary operator => exact exists_plain (by cases operator <;> decide)
  | callFrameAddress | drop | swap | rot | nop | stackValue => exact exists_plain (by decide)

def placed (offset : Nat) (code : List Spelling) : List Placed :=
  code.mapIdx fun index s =>
    ⟨offset + (encoded .little (code.take index)).length, s.operation⟩

theorem placed_cons (offset : Nat) (s : Spelling) (code : List Spelling) :
    placed offset (s :: code) =
      ⟨offset, s.operation⟩ :: placed (offset + (s.bytes .little).length) code := by
  simp [placed, List.mapIdx_cons, encoded, Nat.add_assoc]

theorem operations_placed (offset : Nat) (code : List Spelling) :
    (placed offset code).map (·.operation) = code.map (·.operation) := by
  induction code generalizing offset with
  | nil => rfl
  | cons s code ih => rw [placed_cons, List.map_cons, List.map_cons, ih]

theorem sweep_encoded (offset : Nat) (code : List Spelling) :
    Expression.sweep offset (encoded .little code) = .ok (placed offset code) := by
  induction code generalizing offset with
  | nil =>
    rw [Expression.sweep]
    rfl
  | cons s code ih =>
    obtain ⟨opcode, operands, front⟩ := s.front_cons
    have nonempty : 0 < (s.bytes .little).length := by simp [Spelling.bytes, front]
    have bytes : encoded .little (s :: code) = s.bytes .little ++ encoded .little code := rfl
    have here : (encoded .little (s :: code)).length =
        (s.bytes .little).length + (encoded .little code).length := by
      rw [bytes, List.length_append]
    have behind : offset + ((encoded .little (s :: code)).length -
        (encoded .little code).length) = offset + (s.bytes .little).length := by omega
    have more : ¬(encoded .little (s :: code)).isEmpty := by
      rw [List.isEmpty_iff_length_eq_zero]
      omega
    have read := Operation.reader_spelling s (encoded .little code)
    rw [← bytes] at read
    rw [Expression.sweep, if_neg more, read]
    simp only
    rw [dif_pos (by omega), behind, ih, placed_cons]

/-- Every operation can be written, and decoding gives back what was written, in order and each at
its offset, in whichever ways it was written. -/
theorem decode_encoded :
    (∀ operation : Operation, ∃ s : Spelling, s.operation = operation) ∧
      ∀ code : List Spelling,
        Expression.decode (encoded .little code) =
          .ok ⟨placed 0 code, (encoded .little code).length⟩ := by
  refine ⟨Spelling.exists_spelling, fun code => ?_⟩
  rw [Expression.decode, sweep_encoded]

end SourceScope.Location
