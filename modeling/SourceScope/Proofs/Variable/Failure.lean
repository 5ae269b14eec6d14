import SourceScope.Proofs.Location.Errors
import SourceScope.Variable.Update

set_option autoImplicit false

namespace SourceScope

namespace Location

def Misses (location : Location) (pc : UInt32) : Prop :=
  ∃ entries, location = .list entries ∧ ∀ entry ∈ entries, entry.contains pc = false

inductive Machine.AsksBase (e : Expression) (s : Surroundings) : (steps : Nat) → Machine → Prop where
  | here {steps : Nat} {m : Machine} {placed : Placed} {offset : Int32}
      (at_ : e.placed[m.next]? = some placed) (refers : placed.operation = .frameOffset offset) :
      AsksBase e s (steps + 1) m
  | later {steps : Nat} {m next : Machine} {placed : Placed} (at_ : e.placed[m.next]? = some placed)
      (moved : Machine.step e s { m with next := m.next + 1 } placed.operation = .ok next)
      (asks : AsksBase e s steps next) : AsksBase e s (steps + 1) m

def Expression.AsksBase (e : Expression) (s : Surroundings) : Prop :=
  Machine.AsksBase e s maxSteps ⟨0, [], none, []⟩

/-- The expression for the program counter asks for the frame base, which has no entry for it. -/
def AsksMissingBase (location : Location) (env : Environment) : Prop :=
  ∃ e base, location.expressionAt env.pc = .ok e ∧ e.AsksBase env.surroundings ∧
    env.frameBase = some base ∧ base.Misses env.pc

theorem expressionAt_error_iff {location : Location} {pc : UInt32} {cause : LocationError} :
    location.expressionAt pc = .error cause ↔ location.Misses pc ∧ cause = .noEntryFor pc := by
  cases location with
  | expression e => simp [expressionAt, Misses]
  | list entries =>
    have misses : (Location.list entries).Misses pc ↔ entries.find? (·.contains pc) = none := by
      simp [Misses]
    rw [misses, expressionAt]
    cases entries.find? (·.contains pc) <;> simp [eq_comm]

section

variable {e : Expression} {s : Surroundings} {pc : UInt32}

theorem step_missing_iff (unwound : s.callFrameAddress ≠ .error (.noEntryFor pc)) (m : Machine)
    (operation : Operation) : Machine.step e s m operation = .error (.noEntryFor pc) ↔
      s.frameBase = .error (.noEntryFor pc) ∧ ∃ offset, operation = .frameOffset offset := by
  constructor
  · intro failed
    rcases step_error failed with raised | ⟨offset, rfl, missing⟩ | ⟨-, missing⟩ | ⟨target, -, astray⟩
    · cases raised
    · exact ⟨missing, offset, rfl⟩
    · exact absurd missing unwound
    · cases branchIndex_error astray
  · rintro ⟨missing, offset, rfl⟩
    rw [Machine.step, missing]
    rfl

theorem asksBase_succ_iff {steps : Nat} {m : Machine} {placed : Placed}
    (at_ : e.placed[m.next]? = some placed) : Machine.AsksBase e s (steps + 1) m ↔
      (∃ offset, placed.operation = .frameOffset offset) ∨
        ∃ next, Machine.step e s { m with next := m.next + 1 } placed.operation = .ok next ∧
          Machine.AsksBase e s steps next := by
  constructor
  · rintro (⟨found, refers⟩ | ⟨found, moved, asks⟩) <;> cases at_.symm.trans found
    · exact .inl ⟨_, refers⟩
    · exact .inr ⟨_, moved, asks⟩
  · rintro (⟨offset, refers⟩ | ⟨next, moved, asks⟩)
    · exact .here at_ refers
    · exact .later at_ moved asks

theorem run_missing_iff (unwound : s.callFrameAddress ≠ .error (.noEntryFor pc)) (steps : Nat)
    (m : Machine) : Machine.run e s steps m = .error (.noEntryFor pc) ↔
      s.frameBase = .error (.noEntryFor pc) ∧ Machine.AsksBase e s steps m := by
  induction steps generalizing m with
  | zero =>
    have never : ¬ Machine.AsksBase e s 0 m := nofun
    rw [Machine.run]
    cases e.placed[m.next]? <;> simp [never]
  | succ steps ih =>
    rw [Machine.run]
    cases at_ : e.placed[m.next]? with
    | none =>
      have never : ¬ Machine.AsksBase e s (steps + 1) m := by
        rintro (⟨found, -⟩ | ⟨found, -⟩) <;> simp [at_] at found
      simp [never]
    | some placed =>
      have failing := step_missing_iff (e := e) unwound { m with next := m.next + 1 }
        placed.operation
      rw [asksBase_succ_iff at_]
      simp only
      cases moved : Machine.step e s { m with next := m.next + 1 } placed.operation with
      | error cause =>
        rw [moved] at failing
        simp [failing]
      | ok next =>
        rw [moved] at failing
        simp only [ih next, Except.ok.injEq, exists_eq_left', reduceCtorEq, false_iff] at failing ⊢
        refine and_congr_right fun missing => (or_iff_right fun refers => ?_).symm
        exact failing ⟨missing, refers⟩

theorem evaluate_missing_iff (unwound : s.callFrameAddress ≠ .error (.noEntryFor pc)) :
    e.evaluate s = .error (.noEntryFor pc) ↔
      s.frameBase = .error (.noEntryFor pc) ∧ e.AsksBase s := by
  have ends (m : Machine) : m.result ≠ .error (.noEntryFor pc) := by
    unfold Machine.result
    split <;> simp
  rw [Expression.evaluate, Expression.evaluateFrom, bind_eq_error, run_missing_iff unwound]
  simp [ends, Expression.AsksBase]

end

variable {location : Location} {env : Environment} {pc : UInt32}

theorem callFrameAddress_error_ne : env.callFrameAddress ≠ .error (.noEntryFor pc) := by
  intro missing
  rcases callFrameAddress_error missing with other | ⟨inner, other⟩ <;> cases other

theorem frameBaseValue_missing_iff : env.frameBaseValue = .error (.noEntryFor pc) ↔
    pc = env.pc ∧ ∃ base, env.frameBase = some base ∧ base.Misses env.pc := by
  unfold Environment.frameBaseValue
  cases env.frameBase with
  | none => simp [throw, throwThe, MonadExceptOf.throw]
  | some base =>
    -- a frame base has no frame base of its own, so its expression cannot come to another list
    have bare (e : Expression) : e.evaluate env.bare ≠ .error (.noEntryFor pc) := by
      intro missing
      cases ((evaluate_missing_iff callFrameAddress_error_ne).1 missing).1
    simp only [bind_eq_error, bare, false_or, expressionAt_error_iff]
    constructor
    · rintro (⟨misses, same⟩ | ⟨e, -, found, -, failed⟩)
      · cases same
        exact ⟨rfl, base, rfl, misses⟩
      · cases found <;> simp [pure, Except.pure, throw, throwThe, MonadExceptOf.throw] at failed
    · rintro ⟨rfl, other, same, misses⟩
      cases same
      exact .inl ⟨misses, rfl⟩

theorem evaluate_error_iff : location.evaluate env = .error (.noEntryFor pc) ↔
    pc = env.pc ∧ (location.Misses env.pc ∨ location.AsksMissingBase env) := by
  rw [evaluate, bind_eq_error, expressionAt_error_iff]
  constructor
  · rintro (⟨misses, same⟩ | ⟨e, chosen, failed⟩)
    · cases same
      exact ⟨rfl, .inl misses⟩
    · obtain ⟨missing, asks⟩ := (evaluate_missing_iff callFrameAddress_error_ne).1 failed
      obtain ⟨rfl, base, based, misses⟩ := frameBaseValue_missing_iff.1 missing
      exact ⟨rfl, .inr ⟨e, base, chosen, asks, based, misses⟩⟩
  · rintro ⟨rfl, misses | ⟨e, base, chosen, asks, based, misses⟩⟩
    · exact .inl ⟨misses, rfl⟩
    · have missing := frameBaseValue_missing_iff.2 ⟨rfl, base, based, misses⟩
      exact .inr ⟨e, chosen, (evaluate_missing_iff callFrameAddress_error_ne).2 ⟨missing, asks⟩⟩

theorem not_misses_of_asksMissingBase (asks : location.AsksMissingBase env) :
    ¬ location.Misses env.pc := by
  intro misses
  obtain ⟨e, base, chosen, -⟩ := asks
  cases (expressionAt_error_iff.2 ⟨misses, rfl⟩).symm.trans chosen

end Location

namespace Variable

open Location

@[simp] theorem ofEvaluation_ok (found : Result) : ofEvaluation (.ok found) = .ok found := rfl

@[simp] theorem ofEvaluation_error (cause : LocationError) :
    ofEvaluation (.error cause) = .error (failure cause) := rfl

theorem failure_eq_outOfScope_iff {cause : LocationError} :
    failure cause = .outOfScope ↔ ∃ pc, cause = .noEntryFor pc := by
  cases cause <;> simp [failure]

theorem failure_ne_resolved (cause : LocationError) (address value : Option UInt32) :
    failure cause ≠ .resolved address value := by
  cases cause <;> simp [failure]

theorem resolution_update {v : Variable} {location : Location} (placed : v.place = .located location)
    (env : Environment) : (v.update env).resolution =
      resolutionOf env v.size (ofEvaluation (location.evaluate env)) := by
  obtain ⟨name, type, size, file, line, place, resolution, parts⟩ := v
  subst placed
  rfl

theorem resolution_eq_outOfScope_iff {v : Variable} {location : Location}
    (placed : v.place = .located location) (env : Environment) :
    (v.update env).resolution = .outOfScope ↔
      ∃ pc, location.evaluate env = .error (.noEntryFor pc) := by
  rw [resolution_update placed]
  cases location.evaluate env with
  | ok found => simp [resolutionOf]
  | error cause => simp [resolutionOf, failure_eq_outOfScope_iff]

/-- A variable is out of scope where its list has no entry, and also where its expression asks for a
frame base that has none. Any other failure is published with its message. -/
theorem outOfScope_iff {v : Variable} {location : Location} (placed : v.place = .located location)
    (env : Environment) :
    ((v.update env).resolution = .outOfScope ↔
      location.Misses env.pc ∨ location.AsksMissingBase env) ∧
    (((v.update env).resolution = .outOfScope ↔ location.Misses env.pc) ↔
      ¬ location.AsksMissingBase env) ∧
    ∀ cause, location.evaluate env = .error cause → (v.update env).resolution ≠ .outOfScope →
      (v.update env).resolution = .notLocatable cause.message := by
  have missing : (v.update env).resolution = .outOfScope ↔
      location.Misses env.pc ∨ location.AsksMissingBase env := by
    simp [resolution_eq_outOfScope_iff placed, evaluate_error_iff]
  refine ⟨missing, ?_, ?_⟩
  · rw [missing, or_iff_left_iff_imp]
    exact ⟨fun stays asks => not_misses_of_asksMissingBase asks (stays asks), fun not asks =>
      absurd asks not⟩
  · intro cause failed
    rw [resolution_update placed, failed]
    cases cause <;> simp [resolutionOf, failure]

def slot : Location := .expression (.ofOperations [.frameOffset 4])

def slotVariable : Variable := unevaluated "v" 0 4 (.located slot) []

def baseAt (pc : UInt32) : Environment where
  state := Snapshot.empty.view
  pc := pc
  frame := none
  frameBase := some (.list [⟨0x100, 0x110, .ofOperations [.registerOffset 13 0]⟩])

theorem outOfScope_slot : slotVariable.place = .located slot ∧
    slot.AsksMissingBase (baseAt 0x200) ∧
    (slotVariable.update (baseAt 0x108)).resolution =
      .notLocatable (LocationError.registerUnavailable 13).message := by
  have placed : slotVariable.place = .located slot := rfl
  obtain ⟨outside, -, -⟩ := outOfScope_iff placed (baseAt 0x200)
  obtain ⟨-, -, inside⟩ := outOfScope_iff placed (baseAt 0x108)
  have single : ¬ slot.Misses 0x200 := nofun
  exact ⟨placed, (outside.1 rfl).resolve_left single, inside _ rfl nofun⟩

/-- A location without a list can be out of scope. -/
theorem slot_strays : ¬ slot.Misses (baseAt 0x200).pc ∧
    slot.evaluate (baseAt 0x200) = .error (.noEntryFor 0x200) ∧
    (slotVariable.update (baseAt 0x200)).resolution = .outOfScope :=
  ⟨nofun, rfl, rfl⟩

end Variable

end SourceScope
