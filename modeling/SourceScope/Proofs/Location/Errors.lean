import SourceScope.Location.Basic
import SourceScope.Proofs.Location.Bytewise
import SourceScope.Proofs.Outcome

set_option autoImplicit false

namespace SourceScope

inductive LocationError.Raised : LocationError → Prop where
  | stackUnderflow : Raised .stackUnderflow
  | divisionByZero : Raised .divisionByZero
  | registerUnavailable {register : UInt16} : Raised (.registerUnavailable register)
  | memoryUnavailable {address : UInt32} : Raised (.memoryUnavailable address)

namespace Location

variable {e : Expression} {s : Surroundings} {cause : LocationError}

theorem register_error {number : UInt16} (failed : s.register number = .error cause) :
    cause.Raised := by
  unfold Surroundings.register at failed
  split at failed <;> cases failed
  constructor

theorem peek_error {address : UInt32} (failed : s.peek address = .error cause) : cause.Raised := by
  unfold Surroundings.peek at failed
  split at failed <;> cases failed
  constructor

theorem apply_error {operator : BinaryOperator} {a b : UInt32}
    (failed : operator.apply a b = .error cause) : cause.Raised := by
  cases operator <;> simp only [BinaryOperator.apply] at failed
  case div | mod =>
    split at failed <;> cases failed
    constructor
  all_goals cases failed

theorem branchIndex_error {next : Nat} {target : Int16}
    (failed : e.branchIndex next target = .error cause) : cause = .badBranch := by
  unfold Expression.branchIndex at failed
  simp only at failed
  split at failed
  · cases failed
  · split at failed <;> cases failed
    rfl

theorem step_error {m : Machine} {operation : Operation}
    (failed : Machine.step e s m operation = .error cause) :
    cause.Raised ∨
      (∃ offset, operation = .frameOffset offset ∧ s.frameBase = .error cause) ∨
      (operation = .callFrameAddress ∧ s.callFrameAddress = .error cause) ∨
      ∃ target, operation.jump? m.stack = some target ∧
        e.branchIndex m.next target = .error cause := by
  obtain ⟨next, stack, value, pieces⟩ := m
  have underflow : Except.error .stackUnderflow = (.error cause : Except _ Machine) →
      cause.Raised := by
    rintro ⟨⟩
    constructor
  cases operation with
  | const | nop | piece | implicitValue => cases failed
  | frameOffset offset =>
    have missing : s.frameBase = .error cause := by
      simpa [Machine.step, Machine.push, bind_eq_error] using failed
    exact .inr (.inl ⟨offset, rfl, missing⟩)
  | callFrameAddress =>
    have missing : s.callFrameAddress = .error cause := by
      simpa [Machine.step, Machine.push, bind_eq_error] using failed
    exact .inr (.inr (.inl ⟨rfl, missing⟩))
  | register number => exact .inl (register_error (map_eq_error.1 failed))
  | registerOffset number offset =>
    have missing : s.register number = .error cause := by
      simpa [Machine.step, Machine.push, bind_eq_error] using failed
    exact .inl (register_error missing)
  | deref size =>
    cases stack with
    | nil => exact .inl (underflow failed)
    | cons address rest => exact .inl (peek_error (map_eq_error.1 failed))
  | pick depth =>
    simp only [Machine.step] at failed
    cases found : stack[depth.toNat]? <;> rw [found] at failed
    · exact .inl (underflow failed)
    · cases failed
  | drop | unary | plusConst | stackValue =>
    cases stack with
    | nil => exact .inl (underflow failed)
    | cons => cases failed
  | swap =>
    rcases stack with _ | ⟨a, _ | ⟨b, rest⟩⟩
    · exact .inl (underflow failed)
    · exact .inl (underflow failed)
    · cases failed
  | rot =>
    rcases stack with _ | ⟨a, _ | ⟨b, _ | ⟨c, rest⟩⟩⟩
    · exact .inl (underflow failed)
    · exact .inl (underflow failed)
    · exact .inl (underflow failed)
    · cases failed
  | binary operator =>
    rcases stack with _ | ⟨b, _ | ⟨a, rest⟩⟩
    · exact .inl (underflow failed)
    · exact .inl (underflow failed)
    · exact .inl (apply_error (map_eq_error.1 failed))
  | branch target =>
    cases stack with
    | nil => exact .inl (underflow failed)
    | cons top rest =>
      by_cases zero : top = 0
      · subst zero
        cases failed
      · have jumps : Operation.jump? (top :: rest) (.branch target) = some target := if_neg zero
        have astray : e.branchIndex next target = .error cause := by
          simpa [Machine.step, zero, map_eq_error] using failed
        exact .inr (.inr (.inr ⟨target, jumps, astray⟩))
  | skip target => exact .inr (.inr (.inr ⟨target, rfl, map_eq_error.1 failed⟩))

theorem callFrameAddress_error {env : Environment}
    (failed : env.callFrameAddress = .error cause) :
    cause = .noFrameSection ∨ ∃ inner, cause = .frame inner := by
  unfold Environment.callFrameAddress at failed
  cases table : env.frame with
  | none =>
    rw [table] at failed
    cases failed
    exact .inl rfl
  | some frame =>
    rw [table] at failed
    simp only at failed
    cases unwound : frame.frameAddress env.state env.pc <;> rw [unwound] at failed <;> cases failed
    exact .inr ⟨_, rfl⟩

end Location

end SourceScope
