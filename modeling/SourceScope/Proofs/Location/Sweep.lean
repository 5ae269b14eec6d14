import SourceScope.Location.Evaluation
import SourceScope.Proofs.Bytes.Reader

set_option autoImplicit false

namespace SourceScope.Location

namespace Operation

open Reader Leb128

@[simp] theorem found_leavesTail (operation : Operation) : LeavesTail (found operation) := .pure _

@[simp] theorem refused_leavesTail (reason : Unsupported) : LeavesTail (refused reason) := .pure _

@[simp] theorem constant_leavesTail (n : Int) : LeavesTail (constant n) := .pure _

@[simp] theorem registerNumber_leavesTail : LeavesTail registerNumber :=
  .bind unsigned_leavesTail fun _ => .ite (.pure _) (.fail _)

@[simp] theorem signedOperand_leavesTail : LeavesTail signedOperand :=
  .bind signed_leavesTail fun _ => .pure _

@[simp] theorem branchTarget_leavesTail : LeavesTail branchTarget :=
  .bind (.natural .little 2) fun _ => .pure _

@[simp] theorem block_leavesTail : LeavesTail block := .bind unsigned_leavesTail .take

@[simp] theorem unsignedConstant_leavesTail (bytes : Nat) : LeavesTail (unsignedConstant bytes) :=
  .bind (.natural .little bytes) fun _ => .pure _

@[simp] theorem signedConstant_leavesTail (bytes : Nat) : LeavesTail (signedConstant bytes) :=
  .bind (.natural .little bytes) fun _ => .pure _

@[simp] theorem wasmLocation_leavesTail : LeavesTail wasmLocation := by
  refine .bind .byte fun kind => ?_
  split <;> simp [LeavesTail.bind]

theorem operands_leavesTail (opcode : Nat) : LeavesTail (operands opcode) := by
  have literal (type : Nat) : LeavesTail (do
      let size ← byte
      refused (.typedLiteral type (← take size.toNat))) :=
    .bind .byte fun size => .bind (.take size.toNat) fun _ => refused_leavesTail _
  have based : LeavesTail (if 0x70 ≤ opcode ∧ opcode ≤ 0x8f then do
      found (.registerOffset (UInt16.ofNat (opcode - 0x70)) (← signedOperand))
      else Reader.fail .unknownOperation) :=
    .ite (.bind signedOperand_leavesTail fun _ => found_leavesTail _) (.fail _)
  have typed : LeavesTail (discard unsigned) := .discard unsigned_leavesTail
  unfold operands
  split <;> simp [LeavesTail.bind, LeavesTail.discard, LeavesTail.ite, literal, based, typed]

theorem reader_leavesTail : LeavesTail reader := .bind .byte fun _ => operands_leavesTail _

end Operation

def operationAt (bytes : List UInt8) (position : Nat) : Except LocationError (Operation × Nat) :=
  match Operation.reader (bytes.drop position) with
  | .error cause => .error (.malformed cause)
  | .ok (.error what, _) => .error (.unsupported what)
  | .ok (.ok operation, rest) => .ok (operation, bytes.length - rest.length)

def boundariesFrom (bytes : List UInt8) : (fuel : Nat) → (position : Nat) → List Nat
  | 0, _ => []
  | fuel + 1, position =>
    position ::
      match operationAt bytes position with
      | .ok (_, after) => boundariesFrom bytes fuel after
      | .error _ => []

-- No operation is empty, so there is at most one boundary more than there are bytes.
def boundaries (bytes : List UInt8) : List Nat := boundariesFrom bytes (bytes.length + 1) 0

/-- Operations that stand one behind the other from a position up to the end. -/
inductive Swept (bytes : List UInt8) : Nat → List Placed → Prop where
  | done : Swept bytes bytes.length []
  | next {position after : Nat} {operation : Operation} {later : List Placed}
      (here : operationAt bytes position = .ok (operation, after)) (forward : position < after)
      (rest : Swept bytes after later) : Swept bytes position (⟨position, operation⟩ :: later)

variable {bytes : List UInt8}

theorem Swept.position_le {position : Nat} {placed : List Placed}
    (swept : Swept bytes position placed) : position ≤ bytes.length := by
  induction swept with
  | done => exact Nat.le_refl _
  | next _ forward _ ih => omega

theorem operationAt_length (bytes : List UInt8) :
    ∃ cause, operationAt bytes bytes.length = .error cause := by
  unfold operationAt
  rw [List.drop_length]
  exact ⟨_, rfl⟩

theorem Swept.boundariesFrom_eq {position fuel : Nat} {placed : List Placed}
    (swept : Swept bytes position placed) (enough : bytes.length < position + fuel) :
    boundariesFrom bytes fuel position = placed.map (·.offset) ++ [bytes.length] := by
  induction swept generalizing fuel with
  | done =>
    obtain ⟨fuel, rfl⟩ : ∃ less, fuel = less + 1 := ⟨fuel - 1, by omega⟩
    obtain ⟨cause, ends⟩ := operationAt_length bytes
    rw [boundariesFrom, ends]
    rfl
  | next here forward rest ih =>
    have inside := rest.position_le
    obtain ⟨fuel, rfl⟩ : ∃ less, fuel = less + 1 := ⟨fuel - 1, by omega⟩
    rw [boundariesFrom, here]
    simp only
    rw [ih (by omega)]
    rfl

-- What an operation leaves is the tail from the position behind it, so the sweep can be followed.
theorem sweep_swept {position : Nat} {left : List UInt8} {placed : List Placed}
    (behind : left = bytes.drop position) (inside : position ≤ bytes.length)
    (swept : Expression.sweep position left = .ok placed) : Swept bytes position placed := by
  fun_induction Expression.sweep position left generalizing placed with
  | case1 position left empty =>
    cases swept
    have ended : position = bytes.length := by
      rw [List.isEmpty_iff, behind, List.drop_eq_nil_iff] at empty
      omega
    subst ended
    exact .done
  | case2 | case3 | case4 | case6 => cases swept
  | case5 position left empty operation rest read shorter later sweptLater ih =>
    cases swept
    subst behind
    have tail : rest <:+ bytes :=
      (Operation.reader_leavesTail _ _ _ read).trans (List.drop_suffix position bytes)
    have here : operationAt bytes position = .ok (operation, bytes.length - rest.length) := by
      unfold operationAt
      rw [read]
    rw [List.length_drop] at shorter ih sweptLater
    have after : position + (bytes.length - position - rest.length) =
        bytes.length - rest.length := by omega
    rw [after] at ih sweptLater
    exact .next here (by omega)
      (ih (List.suffix_iff_eq_drop.1 tail) (Nat.sub_le _ _) sweptLater)

theorem decode_swept {e : Expression} (decoded : Expression.decode bytes = .ok e) :
    e.length = bytes.length ∧ Swept bytes 0 e.placed := by
  unfold Expression.decode at decoded
  split at decoded
  · cases decoded
  next placed swept =>
    cases decoded
    exact ⟨rfl, sweep_swept rfl (Nat.zero_le _) swept⟩

theorem Swept.boundaries_eq {placed : List Placed} (swept : Swept bytes 0 placed) :
    boundaries bytes = placed.map (·.offset) ++ [bytes.length] :=
  swept.boundariesFrom_eq (by omega)

theorem Swept.offsetAt_zero {position : Nat} {placed : List Placed}
    (swept : Swept bytes position placed) :
    Expression.offsetAt ⟨placed, bytes.length⟩ 0 = position := by
  cases swept <;> rfl

theorem Swept.getElem? {position index : Nat} {placed : List Placed} {found : Placed}
    (swept : Swept bytes position placed) (atIndex : placed[index]? = some found) :
    found.offset < bytes.length ∧ operationAt bytes found.offset =
      .ok (found.operation, Expression.offsetAt ⟨placed, bytes.length⟩ (index + 1)) := by
  induction swept generalizing index with
  | done => cases atIndex
  | @next position after operation later here forward rest ih =>
    cases index with
    | zero =>
      cases atIndex
      refine ⟨Nat.lt_of_lt_of_le forward rest.position_le, ?_⟩
      rw [here]
      exact congrArg (fun next => Except.ok (operation, next)) rest.offsetAt_zero.symm
    | succ index => exact ih atIndex

end SourceScope.Location
