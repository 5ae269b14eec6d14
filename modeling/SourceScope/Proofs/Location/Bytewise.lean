import Mathlib
import SourceScope.Proofs.Location.Sweep

set_option autoImplicit false

namespace SourceScope.Location

def Operation.jump? (stack : List UInt32) : Operation → Option Int16
  | .skip target => some target
  | .branch target =>
    match stack with
    | top :: _ => if top = 0 then none else some target
    | [] => none
  | _ => none

def Operation.inPlace : Operation → Operation
  | .branch _ => .drop
  | .skip _ => .nop
  | operation => operation

namespace Bytewise

/-- A jump must come to the start of an operation or to the end. -/
def land (bytes : List UInt8) (after : Nat) (target : Int16) : Except LocationError Nat :=
  match (boundaries bytes).find? fun (b : Nat) => (b : Int) == after + target.toInt with
  | some position => .ok position
  | none => .error .badBranch

-- `next` is a byte position here. No operation but a jump asks the expression, which is left empty.
def step (bytes : List UInt8) (s : Surroundings) (m : Machine) : Except LocationError Machine := do
  let (operation, after) ← operationAt bytes m.next
  let moved ← Machine.step ⟨[], 0⟩ s { m with next := after } operation.inPlace
  match operation.jump? m.stack with
  | none => return moved
  | some target => return { moved with next := ← land bytes after target }

def run (bytes : List UInt8) (s : Surroundings) : Nat → Machine → Except LocationError Machine
  | steps, m =>
    if m.next = bytes.length then .ok m
    else
      match steps with
      | 0 => .error .badBranch
      | steps + 1 =>
        match step bytes s m with
        | .error cause => .error cause
        | .ok m => run bytes s steps m

def evaluateFrom (bytes : List UInt8) (s : Surroundings) (stack : List UInt32) :
    Except LocationError Result := do
  (← run bytes s 4096 ⟨0, stack, none, []⟩).result

end Bytewise

def Machine.positioned (e : Expression) (m : Machine) : Machine :=
  { m with next := e.offsetAt m.next }

section

variable {bytes : List UInt8} {e : Expression}

theorem land_eq {after position : Nat} {target : Int16} (boundary : position ∈ boundaries bytes)
    (destination : (position : Int) = after + target.toInt) :
    Bytewise.land bytes after target = .ok position := by
  unfold Bytewise.land
  cases found : (boundaries bytes).find? fun (b : Nat) => (b : Int) == after + target.toInt with
  | none =>
    have missing := List.find?_eq_none.1 found position boundary
    simp [destination] at missing
  | some other =>
    have same := List.find?_some found
    rw [← destination, beq_iff_eq, Int.ofNat_inj] at same
    rw [same]

theorem land_eq_error {after : Nat} {target : Int16}
    (outside : ∀ position ∈ boundaries bytes, (position : Int) ≠ after + target.toInt) :
    Bytewise.land bytes after target = .error .badBranch := by
  unfold Bytewise.land
  rw [List.find?_eq_none.2 fun position boundary => by simpa using outside position boundary]

theorem branchIndex_offset (length : e.length = bytes.length)
    (swept : Swept bytes 0 e.placed) (next : Nat) (target : Int16) :
    (e.branchIndex next target).map e.offsetAt = Bytewise.land bytes (e.offsetAt next) target := by
  have all := swept.boundaries_eq
  rw [← length] at all
  unfold Expression.branchIndex
  simp only
  split
  next ends =>
    have last : e.offsetAt e.placed.length = e.length := by simp [Expression.offsetAt]
    rw [land_eq (all ▸ List.mem_append_right _ (List.mem_singleton_self _)) ends.symm]
    exact congrArg Except.ok last
  next inside =>
    split
    next index found =>
      obtain ⟨bound, here, -⟩ := List.findIdx?_eq_some_iff_getElem.1 found
      have offset : e.offsetAt index = e.placed[index].offset := by
        simp [Expression.offsetAt, bound]
      have boundary : e.placed[index].offset ∈ boundaries bytes := by
        rw [all]
        exact List.mem_append_left _ (List.mem_map_of_mem (List.getElem_mem bound))
      rw [land_eq boundary (beq_iff_eq.1 here)]
      exact congrArg Except.ok offset
    next missing =>
      rw [land_eq_error]
      · rfl
      intro position boundary
      rw [all, List.mem_append, List.mem_map, List.mem_singleton] at boundary
      obtain ⟨placed, member, rfl⟩ | rfl := boundary
      · simpa using List.findIdx?_eq_none_iff.1 missing placed member
      · exact Ne.symm inside

theorem step_positioned (length : e.length = bytes.length)
    (swept : Swept bytes 0 e.placed) (s : Surroundings) (m : Machine) (operation : Operation) :
    (Machine.step e s m operation).map (·.positioned e) = (do
      let moved ← Machine.step ⟨[], 0⟩ s (m.positioned e) operation.inPlace
      match operation.jump? m.stack with
      | none => return moved
      | some target =>
        return { moved with next := ← Bytewise.land bytes (e.offsetAt m.next) target }) := by
  obtain ⟨next, stack, value, pieces⟩ := m
  have lands := branchIndex_offset length swept next
  cases operation with
  | const | nop | piece | implicitValue => rfl
  | register number =>
    simp only [Machine.step, Operation.inPlace]
    cases s.register number <;> rfl
  | registerOffset number offset =>
    simp only [Machine.step, Operation.inPlace]
    cases s.register number <;> rfl
  | frameOffset offset =>
    simp only [Machine.step, Operation.inPlace]
    cases s.frameBase <;> rfl
  | callFrameAddress =>
    simp only [Machine.step, Operation.inPlace]
    cases s.callFrameAddress <;> rfl
  | drop | unary | plusConst | stackValue => cases stack <;> rfl
  | deref size =>
    cases stack with
    | nil => rfl
    | cons address rest =>
      simp only [Machine.step, Operation.inPlace, Machine.positioned]
      cases s.peek address <;> rfl
  | pick depth =>
    simp only [Machine.step, Operation.inPlace, Machine.positioned]
    cases stack[depth.toNat]? <;> rfl
  | swap => rcases stack with _ | ⟨a, _ | ⟨b, rest⟩⟩ <;> rfl
  | rot => rcases stack with _ | ⟨a, _ | ⟨b, _ | ⟨c, rest⟩⟩⟩ <;> rfl
  | binary operator =>
    rcases stack with _ | ⟨b, _ | ⟨a, rest⟩⟩
    · rfl
    · rfl
    simp only [Machine.step, Operation.inPlace, Machine.positioned]
    cases operator.apply a b <;> rfl
  | branch target =>
    cases stack with
    | nil => rfl
    | cons top rest =>
      by_cases zero : top = 0
      · subst zero
        rfl
      have jumps : Operation.jump? (top :: rest) (.branch target) = some target := if_neg zero
      simp only [Machine.step, jumps, ← lands target]
      cases e.branchIndex next target <;> rfl
  | skip target =>
    simp only [Machine.step, Operation.inPlace, Operation.jump?, ← lands target]
    cases e.branchIndex next target <;> rfl

theorem bytewise_step (length : e.length = bytes.length) (swept : Swept bytes 0 e.placed)
    (s : Surroundings) {m : Machine} {placed : Placed} (here : e.placed[m.next]? = some placed) :
    Bytewise.step bytes s (m.positioned e) =
      (Machine.step e s { m with next := m.next + 1 } placed.operation).map (·.positioned e) := by
  have offset : e.offsetAt m.next = placed.offset := by simp [Expression.offsetAt, here]
  have read := (swept.getElem? here).2
  rw [← length] at read
  rw [step_positioned length swept]
  simp only [Bytewise.step, Machine.positioned, offset, read]
  rfl

theorem positioned_next (length : e.length = bytes.length) (swept : Swept bytes 0 e.placed)
    (m : Machine) : (m.positioned e).next = bytes.length ↔ e.placed[m.next]? = none := by
  cases here : e.placed[m.next]? with
  | none => simp [Machine.positioned, Expression.offsetAt, here, length]
  | some placed =>
    have bound := (swept.getElem? here).1
    simp only [Machine.positioned, Expression.offsetAt, here, reduceCtorEq, iff_false]
    omega

theorem run_positioned (length : e.length = bytes.length) (swept : Swept bytes 0 e.placed)
    (s : Surroundings) (steps : Nat) (m : Machine) :
    (Machine.run e s steps m).map (·.positioned e) =
      Bytewise.run bytes s steps (m.positioned e) := by
  have ended := positioned_next length swept
  induction steps generalizing m with
  | zero =>
    rw [Machine.run, Bytewise.run]
    cases here : e.placed[m.next]? with
    | none =>
      rw [if_pos ((ended m).2 here)]
      rfl
    | some placed =>
      rw [if_neg (by simp [ended, here])]
      rfl
  | succ steps ih =>
    rw [Machine.run, Bytewise.run]
    cases here : e.placed[m.next]? with
    | none =>
      rw [if_pos ((ended m).2 here)]
      rfl
    | some placed =>
      rw [if_neg (by simp [ended, here]), bytewise_step length swept s here]
      simp only
      cases Machine.step e s { m with next := m.next + 1 } placed.operation with
      | error cause => rfl
      | ok moved => exact ih moved

end

/-- Evaluation by indices of operations is evaluation by byte positions. -/
theorem evaluateFrom_bytewise {bytes : List UInt8} {e : Expression}
    (decoded : Expression.decode bytes = .ok e) (s : Surroundings) (stack : List UInt32) :
    e.evaluateFrom s stack = Bytewise.evaluateFrom bytes s stack := by
  obtain ⟨length, swept⟩ := decode_swept decoded
  have first : e.offsetAt 0 = 0 := by
    have first := swept.offsetAt_zero
    rwa [← length] at first
  have start : Machine.positioned e ⟨0, stack, none, []⟩ = ⟨0, stack, none, []⟩ := by
    rw [Machine.positioned, first]
  have ran := run_positioned length swept s maxSteps ⟨0, stack, none, []⟩
  rw [start] at ran
  unfold Expression.evaluateFrom Bytewise.evaluateFrom
  change _ = Except.bind (Bytewise.run bytes s maxSteps _) _
  rw [← ran]
  cases Machine.run e s maxSteps ⟨0, stack, none, []⟩ <;> rfl

def countdown : List UInt8 := [0x33, 0x31, 0x1c, 0x12, 0x28, 0xfa, 0xff, 0x2f, 0x01, 0x00, 0x96]

def countdownDecoded : Expression where
  placed := [⟨0, .const 3⟩, ⟨1, .const 1⟩, ⟨2, .binary .minus⟩, ⟨3, .pick 0⟩, ⟨4, .branch (-6)⟩,
    ⟨7, .skip 1⟩, ⟨10, .nop⟩]
  length := 11

def unreadable : Surroundings :=
  ⟨⟨fun _ => none, fun _ => none⟩, .error .noFrameBase, .error .noFrameSection⟩

theorem countdown_bytewise : Expression.decode countdown = .ok countdownDecoded ∧
    Bytewise.evaluateFrom countdown unreadable [7] = .ok (.address 0) := by
  have decoded : Expression.decode countdown = .ok countdownDecoded := by cbv
  refine ⟨decoded, ?_⟩
  rw [← evaluateFrom_bytewise decoded]
  rfl

end SourceScope.Location
