import Mathlib
import SourceScope.Location.Evaluation

set_option autoImplicit false

namespace SourceScope.Location

def signed (a : UInt32) : Int := if a.toNat < 2 ^ 31 then a.toNat else a.toNat - 2 ^ 32

def UnaryOperator.meaning (operator : UnaryOperator) (a : UInt32) : UInt32 :=
  match operator with
  | .abs => UInt32.ofInt |signed a|
  | .neg => UInt32.ofInt (-signed a)
  | .not => UInt32.ofInt (-1 - signed a)

-- Bits, remainders and the shifts to the left and of zeros are those of natural numbers; all else is
-- signed. A quotient is rounded to zero, a shift that keeps the sign to the number below.
def BinaryOperator.meaning (operator : BinaryOperator) (a b : UInt32) :
    Except LocationError UInt32 :=
  match operator with
  | .and => .ok (UInt32.ofNat (a.toNat &&& b.toNat))
  | .or => .ok (UInt32.ofNat (a.toNat ||| b.toNat))
  | .xor => .ok (UInt32.ofNat (a.toNat ^^^ b.toNat))
  | .plus => .ok (UInt32.ofInt (signed a + signed b))
  | .minus => .ok (UInt32.ofInt (signed a - signed b))
  | .mul => .ok (UInt32.ofInt (signed a * signed b))
  | .div =>
    if signed b = 0 then .error .divisionByZero
    else .ok (UInt32.ofInt ((signed a).tdiv (signed b)))
  | .mod =>
    if b.toNat = 0 then .error .divisionByZero else .ok (UInt32.ofNat (a.toNat % b.toNat))
  | .shl => .ok (UInt32.ofNat (a.toNat * 2 ^ b.toNat))
  | .shr => .ok (UInt32.ofNat (a.toNat / 2 ^ b.toNat))
  | .shra => .ok (UInt32.ofInt (signed a / 2 ^ b.toNat))
  | .eq => .ok (if signed a = signed b then 1 else 0)
  | .ge => .ok (if signed a ≥ signed b then 1 else 0)
  | .gt => .ok (if signed a > signed b then 1 else 0)
  | .le => .ok (if signed a ≤ signed b then 1 else 0)
  | .lt => .ok (if signed a < signed b then 1 else 0)
  | .ne => .ok (if signed a ≠ signed b then 1 else 0)

theorem signed_eq (a : UInt32) : signed a = a.toInt32.toInt := by
  have cond := BitVec.toInt_eq_toNat_cond a.toBitVec
  rw [UInt32.toNat_toBitVec] at cond
  refine Eq.trans ?_ cond.symm
  unfold signed
  split <;> split <;> omega

theorem toBitVec_ofInt (n : Int) : (UInt32.ofInt n).toBitVec = BitVec.ofInt 32 n := by
  apply BitVec.eq_of_toNat_eq
  rw [UInt32.ofInt, UInt32.toNat_toBitVec, UInt32.toNat_ofNat', BitVec.toNat_ofInt]
  omega

theorem ofInt_signed (a : UInt32) : UInt32.ofInt (signed a) = a := by
  apply UInt32.eq_of_toBitVec_eq
  rw [toBitVec_ofInt, signed_eq]
  exact BitVec.ofInt_toInt

theorem signed_inj {a b : UInt32} : signed a = signed b ↔ a = b :=
  ⟨fun same => by rw [← ofInt_signed a, same, ofInt_signed], congrArg signed⟩

theorem toInt32_neg_iff (a : UInt32) : a.toInt32 < 0 ↔ signed a < 0 := by
  rw [Int32.lt_iff_toInt_lt, ← signed_eq]
  rfl

theorem UnaryOperator.apply_eq (operator : UnaryOperator) (a : UInt32) :
    operator.apply a = operator.meaning a := by
  cases operator with
  | abs =>
    simp only [UnaryOperator.apply, UnaryOperator.meaning, toInt32_neg_iff]
    split
    next negative => rw [abs_of_neg negative, UInt32.ofInt_neg, ofInt_signed]
    next other => rw [abs_of_nonneg (not_lt.1 other), ofInt_signed]
  | neg => rw [UnaryOperator.apply, UnaryOperator.meaning, UInt32.ofInt_neg, ofInt_signed]
  | not =>
    have difference : -1 - signed a = -signed a + -1 := by omega
    have one : UInt32.ofInt (-1) = -1 := rfl
    rw [UnaryOperator.apply, UnaryOperator.meaning, difference, UInt32.ofInt_add, UInt32.ofInt_neg,
      ofInt_signed, UInt32.not_eq_neg_sub, UInt32.sub_eq_add_neg, one]

theorem shl_eq (a b : UInt32) :
    (if b < 32 then a <<< b else 0) = UInt32.ofNat (a.toNat * 2 ^ b.toNat) := by
  apply UInt32.toNat_inj.1
  rw [UInt32.toNat_ofNat']
  simp only [UInt32.lt_iff_toNat_lt, UInt32.reduceToNat]
  split
  next small => rw [UInt32.toNat_shiftLeft, Nat.mod_eq_of_lt small, Nat.shiftLeft_eq]
  next large =>
    obtain ⟨more, split⟩ := Nat.exists_eq_add_of_le (not_lt.1 large)
    rw [split, Nat.pow_add, Nat.mul_left_comm, Nat.mul_mod_right]
    rfl

theorem shr_eq (a b : UInt32) :
    (if b < 32 then a >>> b else 0) = UInt32.ofNat (a.toNat / 2 ^ b.toNat) := by
  apply UInt32.toNat_inj.1
  have word := a.toNat_lt
  have quotient := Nat.div_le_self a.toNat (2 ^ b.toNat)
  rw [UInt32.toNat_ofNat', Nat.mod_eq_of_lt (by omega)]
  simp only [UInt32.lt_iff_toNat_lt, UInt32.reduceToNat]
  split
  next small => rw [UInt32.toNat_shiftRight, Nat.mod_eq_of_lt small, Nat.shiftRight_eq_div_pow]
  next large =>
    have power : 2 ^ 32 ≤ 2 ^ b.toNat := Nat.pow_le_pow_right (by decide) (not_lt.1 large)
    rw [Nat.div_eq_of_lt (by omega)]
    rfl

theorem signed_div_of_large {b : Nat} (large : 32 ≤ b) (a : UInt32) :
    signed a / 2 ^ b = if signed a < 0 then -1 else 0 := by
  have power : (2 : Int) ^ 32 ≤ 2 ^ b := pow_le_pow_right₀ (by decide) large
  have word := a.toNat_lt
  have low : -(2 ^ b) ≤ signed a ∧ signed a < 2 ^ b := by
    unfold signed
    split <;> omega
  split
  next negative => rw [Int.ediv_eq_neg_one_of_neg_of_le negative (by omega)]
  next other => exact Int.ediv_eq_zero_of_lt (not_lt.1 other) low.2

theorem sshiftRight_eq {a b : UInt32} (small : b.toNat < 32) :
    (a.toInt32 >>> b.toInt32).toUInt32 = UInt32.ofInt (signed a / 2 ^ b.toNat) := by
  -- the distance is read as a signed number modulo 32, which leaves a small one as it is
  have amount : b.toBitVec.smod 32 = b.toBitVec := by
    have positive : b.toBitVec.msb = false := BitVec.msb_eq_false_iff_two_mul_lt.2 (by
      rw [UInt32.toNat_toBitVec]
      omega)
    have width : (32 : BitVec 32).msb = false := by decide
    rw [BitVec.smod_eq, positive, width]
    exact BitVec.umod_eq_of_lt (BitVec.lt_def.2 small)
  have quotient : signed a / 2 ^ b.toNat = (a.toBitVec.sshiftRight b.toNat).toInt := by
    rw [BitVec.toInt_sshiftRight, Int.shiftRight_eq_div_pow, signed_eq]
    push_cast
    rfl
  apply UInt32.eq_of_toBitVec_eq
  rw [toBitVec_ofInt, quotient, BitVec.ofInt_toInt]
  change (a.toInt32 >>> b.toInt32).toBitVec = _
  rw [Int32.toBitVec_shiftRight, UInt32.toBitVec_toInt32, UInt32.toBitVec_toInt32, amount]
  rfl

theorem shra_eq (a b : UInt32) :
    (if b < 32 then (a.toInt32 >>> b.toInt32).toUInt32
      else if a.toInt32 < 0 then 0xffffffff else 0) = UInt32.ofInt (signed a / 2 ^ b.toNat) := by
  simp only [UInt32.lt_iff_toNat_lt, UInt32.reduceToNat, toInt32_neg_iff]
  split
  next small => exact sshiftRight_eq small
  next large =>
    rw [signed_div_of_large (not_lt.1 large)]
    split <;> rfl

theorem div_eq (a b : UInt32) :
    (a.toInt32 / b.toInt32).toUInt32 = UInt32.ofInt ((signed a).tdiv (signed b)) := by
  apply UInt32.eq_of_toBitVec_eq
  apply BitVec.eq_of_toInt_eq
  rw [toBitVec_ofInt, BitVec.toInt_ofInt, signed_eq, signed_eq, ← Int32.toInt_div]
  rfl

theorem truth_decide (p : Prop) [Decidable p] : truth (decide p) = if p then 1 else 0 := by
  by_cases holds : p <;> simp [truth, holds]

theorem BinaryOperator.apply_eq (operator : BinaryOperator) (a b : UInt32) :
    operator.apply a b = operator.meaning a b := by
  cases operator with
  | and => rw [apply, meaning, ← UInt32.toNat_and, UInt32.ofNat_toNat]
  | or => rw [apply, meaning, ← UInt32.toNat_or, UInt32.ofNat_toNat]
  | xor => rw [apply, meaning, ← UInt32.toNat_xor, UInt32.ofNat_toNat]
  | plus => rw [apply, meaning, UInt32.ofInt_add, ofInt_signed, ofInt_signed]
  | minus =>
    rw [apply, meaning, Int.sub_eq_add_neg, UInt32.ofInt_add, UInt32.ofInt_neg, ofInt_signed,
      ofInt_signed, UInt32.sub_eq_add_neg]
  | mul => rw [apply, meaning, UInt32.ofInt_mul, ofInt_signed, ofInt_signed]
  | div =>
    have zero : signed b = 0 ↔ b = 0 := signed_inj (b := 0)
    simp only [apply, meaning, zero, div_eq]
  | mod =>
    have zero : b.toNat = 0 ↔ b = 0 := UInt32.toNat_inj (b := 0)
    rw [apply, meaning, ← UInt32.toNat_mod, UInt32.ofNat_toNat]
    simp only [zero]
  | shl => exact congrArg Except.ok (shl_eq a b)
  | shr => exact congrArg Except.ok (shr_eq a b)
  | shra => exact congrArg Except.ok (shra_eq a b)
  | eq => simp only [apply, meaning, signed_inj, beq_eq_decide, truth_decide]
  | ne =>
    simp only [apply, meaning, ne_eq, signed_inj, bne, beq_eq_decide, ← decide_not, truth_decide]
  | ge | gt | le | lt =>
    simp only [apply, meaning, truth_decide, Int32.le_iff_toInt_le, Int32.lt_iff_toInt_lt,
      ← signed_eq, ge_iff_le, gt_iff_lt]

inductive Width where
  | one
  | two
  | four
deriving DecidableEq, Repr

def Width.bytes : Width → Nat
  | one => 1
  | two => 2
  | four => 4

inductive Formula where
  | const (value : UInt32)
  | register (number : UInt16) (offset : Int32)
  -- Memory at an address, without its sign.
  | deref (width : Width) (address : Formula)
  | unary (operator : UnaryOperator) (operand : Formula)
  | plusConst (constant : UInt32) (operand : Formula)
  | binary (operator : BinaryOperator) (left right : Formula)
deriving DecidableEq, Repr

namespace Formula

def code : Formula → List Operation
  | const value => [.const value]
  | register number offset => [.registerOffset number offset]
  | deref width address => address.code ++ [.deref (UInt8.ofNat width.bytes)]
  | unary operator operand => operand.code ++ [.unary operator]
  | plusConst constant operand => operand.code ++ [.plusConst constant]
  | binary operator left right => left.code ++ (right.code ++ [.binary operator])

/-- What a formula means. The left operand is looked at first. -/
def value (s : Surroundings) : Formula → Except LocationError UInt32
  | const value => .ok value
  | register number offset => do
    return UInt32.ofInt (signed (← s.register number) + offset.toInt)
  | deref width address => do
    return UInt32.ofNat ((← s.peek (← address.value s)).toNat % 256 ^ width.bytes)
  | unary operator operand => do return operator.meaning (← operand.value s)
  | plusConst constant operand => do
    return UInt32.ofNat ((← operand.value s).toNat + constant.toNat)
  | binary operator left right => do
    let a ← left.value s
    let b ← right.value s
    operator.meaning a b

end Formula

theorem addOffset_eq (word : UInt32) (offset : Int32) :
    word + offset.toUInt32 = UInt32.ofInt (signed word + offset.toInt) := by
  have bits : UInt32.ofInt offset.toInt = offset.toUInt32 := by
    apply UInt32.eq_of_toBitVec_eq
    rw [toBitVec_ofInt]
    exact BitVec.ofInt_toInt
  rw [UInt32.ofInt_add, ofInt_signed, bits]

theorem addConst_eq (word constant : UInt32) :
    word + constant = UInt32.ofNat (word.toNat + constant.toNat) := by
  rw [UInt32.ofNat_add, UInt32.ofNat_toNat, UInt32.ofNat_toNat]

theorem lowBytes_eq (width : Width) (word : UInt32) :
    lowBytes (UInt8.ofNat width.bytes).toNat word =
      UInt32.ofNat (word.toNat % 256 ^ width.bytes) := by
  apply UInt32.toNat_inj.1
  have bound := word.toNat_lt
  rw [UInt32.toNat_ofNat']
  cases width with
  | one =>
    change (word &&& 0xff).toNat = word.toNat % 256 ^ 1 % 2 ^ 32
    rw [UInt32.toNat_and]
    exact (Nat.and_two_pow_sub_one_eq_mod _ 8).trans (by omega)
  | two =>
    change (word &&& 0xffff).toNat = word.toNat % 256 ^ 2 % 2 ^ 32
    rw [UInt32.toNat_and]
    exact (Nat.and_two_pow_sub_one_eq_mod _ 16).trans (by omega)
  | four =>
    change word.toNat = word.toNat % 256 ^ 4 % 2 ^ 32
    omega

section Runs

variable {e : Expression} {s : Surroundings}

theorem run_operation {m : Machine} {operation : Operation} {rest : List Operation}
    (here : e.operations.drop m.next = operation :: rest) (steps : Nat) :
    Machine.run e s (steps + 1) m =
      (Machine.step e s { m with next := m.next + 1 } operation).bind (Machine.run e s steps) := by
  have first : e.operations[m.next]? = some operation := by
    rw [← List.head?_drop, here, List.head?_cons]
  rw [Expression.operations, List.getElem?_map] at first
  obtain ⟨placed, found, rfl⟩ := Option.map_eq_some_iff.1 first
  rw [Machine.run, found]
  simp only
  cases Machine.step e s { m with next := m.next + 1 } placed.operation <;> rfl

theorem drop_append {A : Type} {all first rest : List A} {n : Nat}
    (here : all.drop n = first ++ rest) : all.drop (n + first.length) = rest := by
  rw [← List.drop_drop, here, List.drop_left]

/-- Operations that put one word on the stack, or fail, wherever they stand in an expression and
whatever the stack holds. -/
def Pushes (e : Expression) (s : Surroundings) (operations : List Operation)
    (word : Except LocationError UInt32) : Prop :=
  ∀ (m : Machine) (rest : List Operation) (steps : Nat),
    e.operations.drop m.next = operations ++ rest →
      Machine.run e s (operations.length + steps) m = word.bind fun word =>
        Machine.run e s steps
          { m with next := m.next + operations.length, stack := word :: m.stack }

namespace Pushes

variable {operation : Operation}

theorem leaf {word : Except LocationError UInt32}
    (step : ∀ m : Machine, Machine.step e s m operation =
      word.map fun word => { m with stack := word :: m.stack }) :
    Pushes e s [operation] word := by
  intro m rest steps here
  rw [List.length_singleton, Nat.add_comm, run_operation here, step]
  cases word <;> rfl

theorem unary {operand : List Operation} {word : Except LocationError UInt32}
    {f : UInt32 → Except LocationError UInt32} (pushes : Pushes e s operand word)
    (step : ∀ (m : Machine) (a : UInt32) (stack : List UInt32), m.stack = a :: stack →
      Machine.step e s m operation = (f a).map fun word => { m with stack := word :: stack }) :
    Pushes e s (operand ++ [operation]) (word.bind f) := by
  intro m rest steps here
  rw [List.append_assoc] at here
  rw [List.length_append, List.length_singleton, Nat.add_assoc, Nat.add_comm 1 steps,
    pushes m _ _ here]
  cases word with
  | error cause => rfl
  | ok a =>
    simp only [Except.bind]
    rw [run_operation (drop_append here), step _ a m.stack rfl]
    cases f a <;> rfl

theorem binary {left right : List Operation} {first second : Except LocationError UInt32}
    {f : UInt32 → UInt32 → Except LocationError UInt32} (pushesLeft : Pushes e s left first)
    (pushesRight : Pushes e s right second)
    (step : ∀ (m : Machine) (a b : UInt32) (stack : List UInt32), m.stack = b :: a :: stack →
      Machine.step e s m operation = (f a b).map fun word => { m with stack := word :: stack }) :
    Pushes e s (left ++ (right ++ [operation])) (first.bind fun a => second.bind (f a)) := by
  intro m rest steps here
  rw [List.append_assoc, List.append_assoc] at here
  have later := drop_append here
  rw [List.length_append, List.length_append, List.length_singleton, Nat.add_assoc, Nat.add_assoc,
    Nat.add_comm 1 steps, pushesLeft m _ _ here]
  cases first with
  | error cause => rfl
  | ok a =>
    simp only [Except.bind]
    rw [pushesRight _ _ _ later]
    cases second with
    | error cause => rfl
    | ok b =>
      simp only [Except.bind]
      rw [run_operation (drop_append later), step _ a b m.stack rfl]
      cases f a b <;> simp [Except.map, Except.bind, Nat.add_assoc]

end Pushes

theorem pushes_code (e : Expression) (s : Surroundings) (t : Formula) :
    Pushes e s t.code (t.value s) := by
  induction t with
  | const value => exact .leaf fun m => rfl
  | register number offset =>
    refine .leaf fun m => ?_
    simp only [Machine.step, Formula.value, addOffset_eq]
    cases s.register number <;> rfl
  | deref width address ih =>
    refine ih.unary fun m a stack top => ?_
    simp only [Machine.step, top, lowBytes_eq]
    cases s.peek a <;> rfl
  | unary operator operand ih =>
    refine ih.unary fun m a stack top => ?_
    simp only [Machine.step, top, UnaryOperator.apply_eq]
    rfl
  | plusConst constant operand ih =>
    refine ih.unary fun m a stack top => ?_
    simp only [Machine.step, top, addConst_eq]
    rfl
  | binary operator left right ihLeft ihRight =>
    refine ihLeft.binary ihRight fun m a b stack top => ?_
    simp only [Machine.step, top, BinaryOperator.apply_eq]
    cases operator.meaning a b <;> rfl

theorem run_ended {m : Machine} (ended : e.operations.drop m.next = []) (steps : Nat) :
    Machine.run e s steps m = .ok m := by
  have length : e.placed.length ≤ m.next := by
    simpa [Expression.operations] using List.drop_eq_nil_iff.1 ended
  rw [Machine.run, List.getElem?_eq_none length]

/-- An expression that is a formula in postfix order and marks its result as a value gives the value
of the formula, or the error of the first part of the formula that has none. -/
theorem evaluateFrom_formula {e : Expression} {t : Formula}
    (written : e.operations = t.code ++ [.stackValue]) (short : e.operations.length ≤ 4096)
    (s : Surroundings) (stack : List UInt32) :
    e.evaluateFrom s stack = (t.value s).map .value := by
  obtain ⟨spare, budget⟩ : ∃ spare, maxSteps = t.code.length + (spare + 1) := by
    rw [written, List.length_append, List.length_singleton] at short
    exact ⟨4096 - (t.code.length + 1), by rw [maxSteps]; omega⟩
  have here : e.operations.drop (⟨0, stack, none, []⟩ : Machine).next = t.code ++ [.stackValue] :=
    written
  have ran := pushes_code e s t ⟨0, stack, none, []⟩ [.stackValue] (spare + 1) here
  rw [Expression.evaluateFrom, budget, ran]
  cases t.value s with
  | error cause => rfl
  | ok word =>
    have last : e.operations.drop (0 + t.code.length) = [.stackValue] := drop_append here
    have ended : e.operations.drop (0 + t.code.length + 1) = [] := by
      rw [← List.drop_drop, last]
      rfl
    simp only [Except.bind]
    rw [run_operation last, Machine.step]
    simp only [Except.bind]
    rw [run_ended ended]
    rfl

end Runs

def quotient : Formula := .binary .div (.register 0 (-7)) (.deref .two (.const 0x100))

def quotientBytes : List UInt8 := [0x70, 0x79, 0x0a, 0x00, 0x01, 0x94, 0x02, 0x1b, 0x9f]

def quotientDecoded : Expression where
  placed := [⟨0, .registerOffset 0 (-7)⟩, ⟨2, .const 0x100⟩, ⟨5, .deref 2⟩, ⟨7, .binary .div⟩,
    ⟨8, .stackValue⟩]
  length := 9

def holding (register : Option UInt32) (word : UInt32) : Surroundings :=
  ⟨⟨fun _ => some word, fun _ => register⟩, .error .noFrameBase, .error .noFrameSection⟩

theorem evaluateFrom_quotient :
    Expression.decode quotientBytes = .ok quotientDecoded ∧
      quotientDecoded.evaluateFrom (holding (some 1) 0xffff0004) [9] = .ok (.value 0xffffffff) ∧
      quotientDecoded.evaluateFrom (holding (some 1) 0xffff0000) [9] = .error .divisionByZero ∧
      quotientDecoded.evaluateFrom (holding none 0xffff0000) [9] =
        .error (.registerUnavailable 0) := by
  have written : quotientDecoded.operations = quotient.code ++ [.stackValue] := rfl
  have short : quotientDecoded.operations.length ≤ 4096 := by decide
  refine ⟨by cbv, ?_, ?_, ?_⟩ <;> rw [evaluateFrom_formula written short] <;> rfl

end SourceScope.Location
