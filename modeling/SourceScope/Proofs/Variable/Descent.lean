import SourceScope.Proofs.Variable.Part
import SourceScope.Proofs.Variable.Unfolding

set_option autoImplicit false

namespace SourceScope

inductive VariablePlace.Inner : VariablePlace → Prop where
  | offset {offset : UInt32} : Inner (.offset offset)
  | member {e : Location.Expression} : Inner (.member e)
  | target : Inner .target

theorem TypeTable.HasStep.inner {types : TypeTable} {id : TypeId} {step : Step}
    (taken : types.HasStep id step) : step.place.Inner := by
  cases taken <;> constructor

namespace Variable

open TypeTable

variable {env : Environment} {types : TypeTable} {depth : Nat} {v node : Variable}
  {whole around : Option Located} {place : VariablePlace} {r : Resolution} {path : List Nat}

theorem updateParts_eq_map (env : Environment) (whole : Located) (parts : List Variable) :
    updateParts env whole parts = parts.map (updateIn env (some whole)) := by
  induction parts with
  | nil => rfl
  | cons part rest ih => rw [updateParts, ih, List.map_cons]

theorem parts_updateIn (env : Environment) (whole : Option Located) (v : Variable) :
    (v.updateIn env whole).parts = v.parts.map (updateIn env (some (locate env v.place whole))) := by
  cases v
  exact updateParts_eq_map env _ _

theorem LaidOut.updated_parts (laidOut : v.LaidOut types (depth + 1)) (env : Environment)
    (whole : Option Located) :
    (v.updateIn env whole).parts = (partsOf types v.type).map fun p =>
      (make types depth p.1 p.2.1 (types.sizeAt p.2.1) p.2.2).updateIn env
        (some (locate env v.place whole)) := by
  rw [parts_updateIn, ← updateParts_eq_map, ← updateParts_forgetAll, laidOut,
    updateParts_eq_map, layOut, List.map_map]
  rfl

def nodeIn? (env : Environment) : List Nat → Option Located → Variable →
    Option (Option Located × Variable)
  | [], whole, v => some (whole, v)
  | i :: path, whole, v =>
    v.parts[i]?.bind (nodeIn? env path (some (locate env v.place whole)))

theorem node?_updateIn (env : Environment) (path : List Nat) (whole : Option Located)
    (v : Variable) : (v.updateIn env whole).node? path =
      (nodeIn? env path whole v).map fun found => found.2.updateIn env found.1 := by
  induction path generalizing whole v with
  | nil => rfl
  | cons i path ih =>
    rw [node?, nodeIn?, parts_updateIn, List.getElem?_map]
    cases v.parts[i]? with
    | none => rfl
    | some part => exact ih _ part

theorem node?_eq (env : Environment) (path : List Nat) (whole : Option Located) (v : Variable) :
    v.node? path = (nodeIn? env path whole v).map (·.2) := by
  induction path generalizing whole v with
  | nil => rfl
  | cons i path ih =>
    rw [node?, nodeIn?]
    cases v.parts[i]? with
    | none => rfl
    | some part => exact ih _ part

theorem node?_append (path below : List Nat) (v : Variable) :
    v.node? (path ++ below) = (v.node? path).bind (node? below) := by
  induction path generalizing v with
  | nil => rfl
  | cons i path ih =>
    rw [List.cons_append, node?, node?]
    cases v.parts[i]? with
    | none => rfl
    | some part => exact ih part

theorem node?_below (reached : nodeIn? env path whole v = some (around, node)) (below : List Nat) :
    (v.updateIn env whole).node? (path ++ below) = (node.updateIn env around).node? below := by
  rw [node?_append, node?_updateIn, reached]
  rfl

theorem LaidOut.of_nodeIn? (laidOut : v.LaidOut types depth)
    (reached : nodeIn? env path whole v = some (around, node)) :
    ∃ less, node.LaidOut types less := by
  induction path generalizing v whole depth with
  | nil =>
    cases reached
    exact ⟨depth, laidOut⟩
  | cons i path ih =>
    obtain ⟨part, at_, reached⟩ := Option.bind_eq_some_iff.1 reached
    cases depth with
    | zero => simp [laidOut.parts_zero] at at_
    | succ depth =>
      obtain ⟨-, -, -, -, inner⟩ := laidOut.exists_step at_
      exact ih inner reached

theorem LaidOut.update (laidOut : v.LaidOut types depth) (env : Environment) :
    (v.update env).LaidOut types depth := by
  obtain ⟨name, type, size, file, line, place, resolution, parts⟩ := v
  exact (forgetAll_updateParts env _ parts).trans laidOut

theorem locate_of_failed (inner : place.Inner) : locate env place (some (.error r)) = .error r := by
  cases inner <;> rfl

theorem LaidOut.exists_within (laidOut : v.LaidOut types depth) {i : Nat}
    (reached : (v.updateIn env whole).node? (i :: path) = some node) :
    ∃ (part : Variable) (step : Step) (less : Nat), types.HasStep v.type step ∧
      part.Carries types step ∧ part.LaidOut types less ∧
      (part.updateIn env (some (locate env v.place whole))).node? path = some node := by
  rw [node?, parts_updateIn, List.getElem?_map] at reached
  obtain ⟨part, updated, reached⟩ := Option.bind_eq_some_iff.1 reached
  obtain ⟨part, at_, rfl⟩ := Option.map_eq_some_iff.1 updated
  cases depth with
  | zero => simp [laidOut.parts_zero] at at_
  | succ depth =>
    obtain ⟨step, -, taken, carries, inner⟩ := laidOut.exists_step at_
    exact ⟨part, step, depth, taken, carries, inner, reached⟩

theorem resolution_below (laidOut : v.LaidOut types depth)
    (failed : locate env v.place whole = .error r)
    (reached : (v.updateIn env whole).node? path = some node) : node.resolution = r := by
  induction path generalizing v whole depth with
  | nil =>
    cases reached
    rw [resolution_updateIn, failed]
    rfl
  | cons i path ih =>
    obtain ⟨part, step, less, taken, carries, inner, reached⟩ := laidOut.exists_within reached
    refine ih inner ?_ reached
    rw [carries.place, failed, locate_of_failed taken.inner]

theorem nodeIn?_unlocated (known : ∀ r, whole = some (.error r) → r.Unlocated)
    (reached : nodeIn? env path whole v = some (around, node)) :
    ∀ r, around = some (.error r) → r.Unlocated := by
  induction path generalizing v whole with
  | nil =>
    cases reached
    exact known
  | cons i path ih =>
    obtain ⟨part, -, reached⟩ := Option.bind_eq_some_iff.1 reached
    refine ih (fun r failed => ?_) reached
    exact locate_unlocated known (Option.some.inj failed)

theorem resolution_ne_pending (known : ∀ r, whole = some (.error r) → r.Unlocated) :
    (v.updateIn env whole).resolution ≠ .pending := by
  rw [resolution_updateIn]
  cases located : locate env v.place whole with
  | ok found => nofun
  | error r =>
    rintro rfl
    cases locate_unlocated known located

theorem place_of_pointer {type : SourceType} {step : Step} (found : types.get? v.type = some type)
    (pointer : type.isPointer) (taken : types.HasStep v.type step) : step.place = .target := by
  cases taken with
  | target => rfl
  | field other shape | computed other shape | element other shape =>
    obtain rfl := Option.some.inj (found.symm.trans other)
    simp [SourceType.isPointer, shape] at pointer

theorem resolution_behind (laidOut : v.LaidOut types depth) {type : SourceType}
    (found : types.get? v.type = some type) (pointer : type.isPointer)
    {location : Location.Result} (located : locate env v.place whole = .ok location)
    (unread : location.value? env.state.peek = none) (moves : path ≠ [])
    (reached : (v.updateIn env whole).node? path = some node) :
    node.resolution = .resolved none none := by
  cases path with
  | nil => exact absurd rfl moves
  | cons i path =>
    obtain ⟨part, step, less, taken, carries, inner, reached⟩ := laidOut.exists_within reached
    -- The part behind the pointer fails by itself, so all nodes below it do.
    refine resolution_below inner ?_ reached
    rw [carries.place, place_of_pointer found pointer taken, located]
    simp only [locate, locatePart, unread]

/-- One update evaluates every node anew. A failure at the root is that of all nodes, and below a
pointer that is located and cannot be read no node has an address or a value. -/
theorem update_renewed (laidOut : v.LaidOut types depth) (env : Environment) :
    (∀ w : Variable, w.forget = v.forget → w.update env = v.update env) ∧
    (∀ path node, v.node? path = some node →
      ∃ around renewed, nodeIn? env path none v = some (around, node) ∧
        (v.update env).node? path = some renewed ∧
        renewed.resolution = resolutionOf env node.size (locate env node.place around)) ∧
    (∀ path node, (v.update env).node? path = some node → node.resolution ≠ .pending) ∧
    ((v.update env).resolution = .outOfScope ∨
        (∃ reason, (v.update env).resolution = .notLocatable reason) →
      ∀ path node, (v.update env).node? path = some node →
        node.resolution = (v.update env).resolution) ∧
    ∀ path around node, nodeIn? env path none v = some (around, node) →
      ((∃ type, types.get? node.type = some type ∧ type.isPointer) ∧
          (∃ location, locate env node.place around = .ok location ∧
            location.value? env.state.peek = none) ∨
        locate env node.place around = .error (.resolved none none)) →
      ∀ below inner, below ≠ [] → (v.update env).node? (path ++ below) = some inner →
        inner.resolution = .resolved none none := by
  have known : ∀ r, (none : Option Located) = some (.error r) → r.Unlocated := nofun
  refine ⟨fun w same => update_congr env same, ?_, ?_, ?_, ?_⟩
  · intro path node reached
    rw [node?_eq env path none, Option.map_eq_some_iff] at reached
    obtain ⟨⟨around, node⟩, reached, rfl⟩ := reached
    refine ⟨around, node.updateIn env around, reached, ?_, resolution_updateIn env around node⟩
    rw [update, node?_updateIn, reached]
    rfl
  · intro path node reached
    rw [update, node?_updateIn, Option.map_eq_some_iff] at reached
    obtain ⟨⟨around, old⟩, reached, rfl⟩ := reached
    exact resolution_ne_pending (nodeIn?_unlocated known reached)
  · intro failed path node reached
    rw [update, resolution_updateIn] at failed ⊢
    cases located : locate env v.place none with
    | ok found => simp [located, resolutionOf] at failed
    | error r => exact resolution_below laidOut located reached
  · intro path around node there cause below inner moves reached
    rw [update, node?_below there] at reached
    obtain ⟨less, laidOut⟩ := laidOut.of_nodeIn? there
    rcases cause with ⟨⟨type, found, pointer⟩, location, located, unread⟩ | failed
    · exact resolution_behind laidOut found pointer located unread moves reached
    · exact resolution_below laidOut failed reached

def listed : Snapshot :=
  ((Snapshot.empty.writeWord 0x2000 0x3000).writeWord 0x3000 7).writeWord 0x3004 0

theorem update_renewed_head :
    ((head 3).update (frozenIn listed)).LaidOut chain 3 ∧
      (((head 3).update (frozenIn listed)).node? [0, 0]).map (·.resolution) =
        some (.resolved (some 0x3000) (some 7)) ∧
      ((((head 3).update (frozenIn listed)).update (frozenIn .empty)).node? [0, 0]).map
        (·.resolution) = some (.resolved none none) := by
  have laidOut : ((head 3).update (frozenIn listed)).LaidOut chain 3 :=
    (make_laidOut chain 3 "head" 2 4 _).update (frozenIn listed)
  refine ⟨laidOut, rfl, ?_⟩
  obtain ⟨-, evaluated, -, -, behind⟩ := update_renewed laidOut (frozenIn .empty)
  obtain ⟨around, renewed, -, reached, -⟩ := evaluated [0, 0] _ rfl
  have unread := behind [] none _ rfl (.inl ⟨⟨_, rfl, rfl⟩, .address 0x2000, rfl, rfl⟩) [0, 0] renewed
    nofun reached
  rw [reached, Option.map_some, unread]

end Variable

end SourceScope
