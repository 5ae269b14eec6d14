import SourceScope.Proofs.Location.Arithmetic
import SourceScope.Proofs.Variable.Descent

set_option autoImplicit false

namespace SourceScope

namespace Location

variable {e : Expression} {k : UInt32}

theorem memberOffset?_eq_some_iff : e.memberOffset? = some k ↔
    e.operations = [.plusConst k] ∨ e.operations = [.const k, .binary .plus] := by
  unfold Expression.memberOffset?
  constructor
  · intro found
    split at found <;> cases found
    · exact .inl ‹_›
    · exact .inr ‹_›
  · rintro (written | written) <;> rw [written]

theorem evaluateAt_memberOffset (constant : e.memberOffset? = some k) (s : Surroundings)
    (base : UInt32) : e.evaluateAt s base = .ok (.address (base + k)) := by
  rw [Expression.evaluateAt, Expression.evaluateFrom, maxSteps]
  rcases memberOffset?_eq_some_iff.1 constant with written | written
  · have here : e.operations.drop (⟨0, [base], none, []⟩ : Machine).next = [.plusConst k] := written
    have ended : e.operations.drop 1 = [] := by
      rw [written]
      rfl
    rw [run_operation here, Machine.step]
    simp only [Except.bind]
    rw [run_ended ended]
    rfl
  · have first : e.operations.drop (⟨0, [base], none, []⟩ : Machine).next =
        .const k :: [.binary .plus] := written
    have second : e.operations.drop 1 = [.binary .plus] := by
      rw [written]
      rfl
    have ended : e.operations.drop 2 = [] := by
      rw [written]
      rfl
    rw [run_operation first, Machine.step, Machine.push]
    simp only [Except.bind]
    rw [run_operation second]
    simp only [Machine.step, BinaryOperator.apply]
    exact congrArg (· >>= Machine.result) (run_ended ended 4094)

end Location

theorem SourceType.exists_composite {type : SourceType} {i : Nat} {member : Member}
    (listed : type.members[i]? = some member) :
    ∃ isUnion members, type.shape = .composite isUnion members ∧ members[i]? = some member := by
  unfold SourceType.members at listed
  cases shape : type.shape with
  | composite isUnion members =>
    rw [shape] at listed
    exact ⟨isUnion, members, rfl, listed⟩
  | base | pointer | array => simp [shape] at listed

namespace Variable

open Location TypeTable

variable {e : Expression} {k base address : UInt32} {env : Environment} {types : TypeTable}
  {depth i : Nat} {v : Variable} {whole : Option Located}

/-- The part is what a member becomes at an address. How the address was found does not count. -/
structure LiesAt (env : Environment) (types : TypeTable) (depth : Nat) (member : Member)
    (address : UInt32) (part : Variable) : Prop where
  name : part.name = member.name
  type : part.type = member.type
  size : part.size = types.sizeAt member.type
  resolution : part.resolution =
    resolutionOf env (types.sizeAt member.type) (.ok (.address address))
  parts : part.parts = updateParts env (.ok (.address address)) (layOut types depth member.type)

theorem LaidOut.liesAt {step : Step} (laidOut : v.LaidOut types (depth + 1))
    (taken : types.HasStep v.type step)
    (located : locate env step.place (some (locate env v.place whole)) = .ok (.address address))
    {member : Member} (name : step.name = member.name) (type : step.type = member.type) :
    ∃ part, (v.updateIn env whole).parts[step.index]? = some part ∧
      part.LiesAt env types depth member address := by
  rw [laidOut.updated_parts, List.getElem?_map, getElem?_partsOf taken]
  refine ⟨_, rfl, ?_⟩
  simp only [make, unevaluated, updateIn, located, name, type]
  constructor <;> rfl

theorem locate_constantMember (constant : e.memberOffset? = some k) (env : Environment)
    (base : UInt32) :
    locate env (.member e) (some (.ok (.address base))) = .ok (.address (base + k)) := by
  simp only [locate, locatePart, evaluateAt_memberOffset constant]
  rfl

theorem LaidOut.constantMember_liesAt (laidOut : v.LaidOut types (depth + 1))
    (located : locate env v.place whole = .ok (.address base)) {type : SourceType} {member : Member}
    (found : types.get? v.type = some type) (listed : type.members[i]? = some member)
    (constant : e.memberOffset? = some k)
    (stored : member.place = .offset k ∨ member.place = .expression e) :
    ∃ part, (v.updateIn env whole).parts[i]? = some part ∧
      part.LiesAt env types depth member (base + k) := by
  obtain ⟨isUnion, members, shape, listed⟩ := SourceType.exists_composite listed
  obtain ⟨name, target, place⟩ := member
  simp only at stored
  rcases stored with rfl | rfl
  · refine laidOut.liesAt (.field found shape listed) ?_ rfl rfl
    rw [located]
    rfl
  · refine laidOut.liesAt (.computed found shape listed) ?_ rfl rfl
    rw [located]
    exact locate_constantMember constant env base

/-- An expression that adds a constant to the address below it. The constant is what the type stores,
and a member is at the same place, with all its parts, whichever of the two is stored. -/
theorem constantMember_located {entry : Entry} {bytes : List UInt8} {e : Expression} {k : UInt32}
    (block : entry.attr? Attr.dataMemberLocation = some (.block bytes))
    (decoded : Expression.decode bytes = .ok e) (constant : e.memberOffset? = some k) :
    memberPlace? entry = some (.offset k) ∧
      ∀ (env : Environment) (base : UInt32),
        e.evaluateAt env.surroundings base = .ok (.address (base + k)) ∧
          ∀ (types : TypeTable) (depth i : Nat) (v : Variable) (whole : Option Located)
            (type : SourceType) (member : Member), v.LaidOut types (depth + 1) →
            locate env v.place whole = .ok (.address base) → types.get? v.type = some type →
            type.members[i]? = some member →
            (member.place = .offset k ∨ member.place = .expression e) →
              ∃ part, (v.updateIn env whole).parts[i]? = some part ∧
                part.LiesAt env types depth member (base + k) := by
  constructor
  · simp only [memberPlace?, block, decoded, constant]
  intro env base
  refine ⟨evaluateAt_memberOffset constant env.surroundings base, ?_⟩
  intro types depth i v whole type member laidOut located found listed stored
  exact laidOut.constantMember_liesAt located found listed constant stored

def backwardBytes : List UInt8 := [0x09, 0xfc, 0x22]

def backward : Expression where
  placed := [⟨0, .const 0xfffffffc⟩, ⟨2, .binary .plus⟩]
  length := 3

def backwardEntry : Entry := ⟨36, Tag.member, 0, 2, some 32,
  [(Attr.name, .text "before"), (Attr.type, .reference 16),
    (Attr.dataMemberLocation, .block backwardBytes)]⟩

def bothWays : TypeTable where
  slots := #[some (.plain "int" 4 .base 16),
    some (.plain "window" 8 (.composite false [⟨"offset", 0, .offset 0xfffffffc⟩,
      ⟨"expression", 0, .expression backward⟩]) 32)]
  numbers := [(16, 0), (32, 1)]

def bothWaysVariable : Variable :=
  make bothWays 1 "w" 1 8 (.located (.expression (.ofOperations [.const 0x2000])))

def sevenBefore : Environment := frozenIn (Snapshot.empty.writeWord 0x1ffc 7)

theorem constantMember_located_backward :
    Expression.decode backwardBytes = .ok backward ∧
      memberPlace? backwardEntry = some (.offset 0xfffffffc) ∧
      ∃ first second, (bothWaysVariable.update sevenBefore).parts[0]? = some first ∧
        (bothWaysVariable.update sevenBefore).parts[1]? = some second ∧
        first.resolution = .resolved (some 0x1ffc) (some 7) ∧
        second.resolution = first.resolution := by
  have decoded : Expression.decode backwardBytes = .ok backward := by cbv
  have block : backwardEntry.attr? Attr.dataMemberLocation = some (.block backwardBytes) := rfl
  have laidOut : bothWaysVariable.LaidOut bothWays 1 := make_laidOut _ _ _ _ _ _
  obtain ⟨stored, located⟩ := constantMember_located block decoded rfl
  obtain ⟨-, parts⟩ := located sevenBefore 0x2000
  obtain ⟨first, atFirst, liesFirst⟩ := parts _ 0 0 _ none _ _ laidOut rfl rfl rfl (.inl rfl)
  obtain ⟨second, atSecond, liesSecond⟩ := parts _ 0 1 _ none _ _ laidOut rfl rfl rfl (.inr rfl)
  refine ⟨decoded, stored, first, second, atFirst, atSecond, liesFirst.resolution, ?_⟩
  rw [liesFirst.resolution, liesSecond.resolution]

end Variable

end SourceScope
