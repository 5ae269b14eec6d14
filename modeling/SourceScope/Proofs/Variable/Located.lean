import SourceScope.Variable.Update

set_option autoImplicit false

namespace SourceScope

inductive Resolution.Unlocated : Resolution → Prop where
  | outOfScope : Unlocated .outOfScope
  | notLocatable {reason : String} : Unlocated (.notLocatable reason)
  -- Below a pointer that could not be read.
  | unread : Unlocated (.resolved none none)

namespace Variable

open Location

variable {env : Environment} {v : Variable} {place : VariablePlace} {whole : Option Located}
  {found : Option Result} {r : Resolution} {a value : UInt32}

theorem resolution_updateIn (env : Environment) (whole : Option Located) (v : Variable) :
    (v.updateIn env whole).resolution = resolutionOf env v.size (locate env v.place whole) := by
  cases v
  rfl

theorem failure_unlocated (cause : LocationError) : (failure cause).Unlocated := by
  cases cause <;> constructor

theorem ofEvaluation_unlocated {result : Except LocationError Result}
    (failed : ofEvaluation result = .error r) : r.Unlocated := by
  cases result with
  | ok found => cases failed
  | error cause =>
    cases failed
    exact failure_unlocated cause

theorem locatePart_unlocated {base : Result} (failed : locatePart env place base = .error r) :
    r.Unlocated := by
  unfold locatePart at failed
  split at failed
  case h_1 | h_2 => cases failed
  case h_3 | h_5 =>
    split at failed
    · cases failed
    · cases failed
      constructor
  case h_4 => exact ofEvaluation_unlocated failed
  case h_6 =>
    cases failed
    constructor

theorem locate_unlocated (known : ∀ r, whole = some (.error r) → r.Unlocated)
    (failed : locate env place whole = .error r) : r.Unlocated := by
  cases place with
  | constant => cases failed
  | nowhere =>
    cases failed
    constructor
  | located location => exact ofEvaluation_unlocated failed
  | offset | member | target =>
    cases whole with
    | none =>
      cases failed
      constructor
    | some located =>
      cases located with
      | ok found =>
        simp only [locate] at failed
        exact locatePart_unlocated failed
      | error =>
        cases failed
        exact known r rfl

theorem exists_located
    (resolved : (v.updateIn env (found.map .ok)).address?.isSome ∨
      (v.updateIn env (found.map .ok)).value?.isSome) :
    ∃ location, locate env v.place (found.map .ok) = .ok location ∧
      (v.updateIn env (found.map .ok)).resolution = resolutionOf env v.size (.ok location) := by
  rw [address?, value?, resolution_updateIn] at resolved
  rw [resolution_updateIn]
  cases located : locate env v.place (found.map .ok) with
  | ok location => exact ⟨location, rfl, rfl⟩
  | error r =>
    have known : ∀ r, (found.map .ok : Option Located) = some (.error r) → r.Unlocated := by
      cases found <;> simp
    rw [located, resolutionOf] at resolved
    cases locate_unlocated known located <;> simp at resolved

theorem locate_of_address? (resolved : (v.updateIn env (found.map .ok)).address? = some a) :
    locate env v.place (found.map .ok) = .ok (.address a) := by
  obtain ⟨location, located, resolution⟩ := exists_located (.inl (by rw [resolved]; rfl))
  rw [located]
  rw [address?, resolution] at resolved
  cases location <;> cases resolved
  rfl

theorem locate_of_value? (valued : (v.updateIn env (found.map .ok)).value? = some value) :
    ∃ location word, locate env v.place (found.map .ok) = .ok location ∧
      location.value? env.state.peek = some word ∧ value = lowBytes v.size.toNat word := by
  obtain ⟨location, located, resolution⟩ := exists_located (.inr (by rw [valued]; rfl))
  rw [value?, resolution] at valued
  obtain ⟨word, read, rfl⟩ := Option.map_eq_some_iff.1 valued
  exact ⟨location, word, located, read, rfl⟩

end Variable

end SourceScope
