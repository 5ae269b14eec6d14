import SourceScope.Proofs.Location.Arithmetic
import SourceScope.Proofs.Outcome

set_option autoImplicit false

namespace SourceScope.Location

def Operation.isStraight : Operation → Bool
  | .branch _ | .skip _ | .piece _ => false
  | _ => true

structure Segment where
  expression : Expression
  size : UInt32
deriving DecidableEq, Repr

namespace Segment

def code (g : Segment) : List Operation := g.expression.operations ++ [.piece g.size]

theorem length_code (g : Segment) : g.code.length = g.expression.operations.length + 1 :=
  List.length_append

def IsStraight (g : Segment) : Prop := ∀ operation ∈ g.expression.operations, operation.isStraight

instance (g : Segment) : Decidable g.IsStraight := inferInstanceAs (Decidable (∀ _ ∈ _, _))

/-- What a segment leaves when it runs alone: the one word on the stack, a value above an empty
stack, or nothing if it has no operations. -/
def place? (s : Surroundings) (g : Segment) : Option Place :=
  if g.expression.operations = [] then some .empty
  else
    match Machine.run g.expression s maxSteps ⟨0, [], none, []⟩ with
    | .ok ⟨_, [address], none, _⟩ => some (.address address)
    | .ok ⟨_, [], some value, _⟩ => some (.value value)
    | _ => none

def piece? (s : Surroundings) (g : Segment) : Option Piece := (g.place? s).map (⟨g.size, ·⟩)

end Segment

def Machine.moved (m : Machine) (next : Nat) (pieces : List Piece) : Machine :=
  { m with next, pieces }

section Runs

variable {e alone : Expression} {s : Surroundings} {operation : Operation}

theorem step_moved (e alone : Expression) (s : Surroundings)
    (straight : operation.isStraight = true) (m : Machine) (next : Nat) (pieces : List Piece) :
    Machine.step e s (m.moved next pieces) operation =
      (Machine.step alone s m operation).map (·.moved next pieces) := by
  obtain ⟨index, stack, value, earlier⟩ := m
  cases operation with
  | branch | skip | piece => cases straight
  | const | nop | implicitValue => rfl
  | register number | registerOffset number =>
    simp only [Machine.step, Machine.moved]
    cases s.register number <;> rfl
  | frameOffset =>
    simp only [Machine.step, Machine.moved]
    cases s.frameBase <;> rfl
  | callFrameAddress =>
    simp only [Machine.step, Machine.moved]
    cases s.callFrameAddress <;> rfl
  | pick depth =>
    simp only [Machine.step, Machine.moved]
    cases stack[depth.toNat]? <;> rfl
  | deref =>
    cases stack with
    | nil => rfl
    | cons address =>
      simp only [Machine.step, Machine.moved]
      cases s.peek address <;> rfl
  | drop | unary | plusConst | stackValue => cases stack <;> rfl
  | swap => rcases stack with _ | ⟨first, _ | ⟨second, rest⟩⟩ <;> rfl
  | rot => rcases stack with _ | ⟨first, _ | ⟨second, _ | ⟨third, rest⟩⟩⟩ <;> rfl
  | binary operator =>
    rcases stack with _ | ⟨b, _ | ⟨a, rest⟩⟩
    · rfl
    · rfl
    · simp only [Machine.step, Machine.moved]
      cases operator.apply a b <;> rfl

theorem next_of_step (straight : operation.isStraight = true) {m reached : Machine}
    (stepped : Machine.step e s m operation = .ok reached) : reached.next = m.next := by
  have same := step_moved e e s straight m m.next m.pieces
  have itself : m.moved m.next m.pieces = m := rfl
  rw [itself, stepped] at same
  have index := congrArg Machine.next (Except.ok.inj same)
  exact index

theorem run_first {m reached : Machine} {rest : List Operation} {budget : Nat}
    (here : e.operations.drop m.next = operation :: rest)
    (ran : Machine.run e s budget m = .ok reached) :
    ∃ spare after, Machine.step e s { m with next := m.next + 1 } operation = .ok after ∧
      Machine.run e s spare after = .ok reached := by
  cases budget with
  | zero =>
    have first : e.operations[m.next]? = some operation := by
      rw [← List.head?_drop, here, List.head?_cons]
    rw [Expression.operations, List.getElem?_map] at first
    obtain ⟨placed, found, -⟩ := Option.map_eq_some_iff.1 first
    rw [Machine.run, found] at ran
    cases ran
  | succ spare =>
    rw [run_operation here] at ran
    exact ⟨spare, bind_eq_ok.1 ran⟩

theorem run_moved {operations rest : List Operation}
    (straight : ∀ operation ∈ operations, operation.isStraight = true) {m reached : Machine}
    {budget : Nat} (here : alone.operations.drop m.next = operations)
    (ran : Machine.run alone s budget m = .ok reached) {next : Nat}
    (there : e.operations.drop next = operations ++ rest) (pieces : List Piece) (steps : Nat) :
    Machine.run e s (operations.length + steps) (m.moved next pieces) =
      Machine.run e s steps (reached.moved (next + operations.length) pieces) := by
  induction operations generalizing m budget next with
  | nil =>
    rw [run_ended here] at ran
    obtain rfl := Except.ok.inj ran
    rw [List.length_nil, Nat.zero_add, Nat.add_zero]
  | cons operation operations ih =>
    obtain ⟨first, later⟩ := List.forall_mem_cons.1 straight
    obtain ⟨spare, after, stepped, ran⟩ := run_first here ran
    have index : after.next = m.next + 1 := next_of_step first stepped
    have beyond : alone.operations.drop after.next = operations := by
      rw [index, ← List.drop_drop, here]
      rfl
    have onward : e.operations.drop (next + 1) = operations ++ rest := by
      rw [← List.drop_drop, there]
      rfl
    have elsewhere : Machine.step e s ((m.moved next pieces).moved (next + 1) pieces) operation =
        .ok (after.moved (next + 1) pieces) := by
      have same := step_moved e alone s first { m with next := m.next + 1 } (next + 1) pieces
      rw [stepped] at same
      exact same
    have begun : Machine.run e s (operations.length + steps + 1) (m.moved next pieces) =
        (Machine.step e s ((m.moved next pieces).moved (next + 1) pieces) operation).bind
          (Machine.run e s (operations.length + steps)) := run_operation there _
    rw [List.length_cons, Nat.add_right_comm, begun, elsewhere, Nat.add_comm operations.length 1,
      ← Nat.add_assoc]
    exact ih later beyond ran onward

theorem exists_reached {g : Segment} {place : Place} (left : g.place? s = some place) :
    ∃ reached, Machine.run g.expression s maxSteps ⟨0, [], none, []⟩ = .ok reached ∧
      ∀ next pieces, (reached.moved next pieces).takePiece g.size =
        ⟨next, [], none, ⟨g.size, place⟩ :: pieces⟩ := by
  unfold Segment.place? at left
  split at left
  next empty =>
    obtain rfl := Option.some.inj left
    exact ⟨_, run_ended (by rw [empty]; rfl) maxSteps, fun _ _ => rfl⟩
  split at left
  next ran =>
    obtain rfl := Option.some.inj left
    exact ⟨_, ran, fun _ _ => rfl⟩
  next ran =>
    obtain rfl := Option.some.inj left
    exact ⟨_, ran, fun _ _ => rfl⟩
  next => cases left

theorem run_segment {g : Segment} (straight : g.IsStraight) {piece : Piece}
    (alone : g.piece? s = some piece) {next : Nat} {rest : List Operation}
    (there : e.operations.drop next = g.code ++ rest) (earlier : List Piece) (steps : Nat) :
    Machine.run e s (g.code.length + steps) ⟨next, [], none, earlier⟩ =
      Machine.run e s steps ⟨next + g.code.length, [], none, piece :: earlier⟩ := by
  obtain ⟨place, left, rfl⟩ := Option.map_eq_some_iff.1 alone
  obtain ⟨reached, ran, taken⟩ := exists_reached left
  rw [Segment.code, List.append_assoc] at there
  have through := run_moved straight (m := ⟨0, [], none, []⟩) rfl ran there earlier (1 + steps)
  have last : e.operations.drop (next + g.expression.operations.length) = .piece g.size :: rest :=
    drop_append there
  have ended : Machine.run e s (1 + steps)
      (reached.moved (next + g.expression.operations.length) earlier) =
      Machine.run e s steps ((reached.moved (next + g.code.length) earlier).takePiece g.size) := by
    rw [Nat.add_comm 1 steps, g.length_code,
      run_operation (m := reached.moved (next + g.expression.operations.length) earlier) last]
    rfl
  rw [taken] at ended
  rw [g.length_code, Nat.add_assoc, ← g.length_code]
  exact through.trans ended

theorem run_segments {segments : List Segment} (straight : ∀ g ∈ segments, g.IsStraight)
    {pieces : List Piece} (alone : pieces.map some = segments.map (·.piece? s)) {next : Nat}
    (there : e.operations.drop next = segments.flatMap Segment.code) (earlier : List Piece)
    (steps : Nat) :
    Machine.run e s ((segments.flatMap Segment.code).length + steps) ⟨next, [], none, earlier⟩ =
      .ok ⟨next + (segments.flatMap Segment.code).length, [], none, pieces.reverse ++ earlier⟩ := by
  induction segments generalizing pieces next earlier with
  | nil =>
    obtain rfl := List.map_eq_nil_iff.1 alone
    exact run_ended there _
  | cons g segments ih =>
    obtain ⟨first, later⟩ := List.forall_mem_cons.1 straight
    obtain ⟨piece, pieces, rfl, own, others⟩ := List.map_eq_cons_iff.1 alone
    rw [List.flatMap_cons] at there
    rw [List.flatMap_cons, List.length_append, Nat.add_assoc, run_segment first own.symm there,
      ih later others (drop_append there), List.reverse_cons, List.append_assoc, Nat.add_assoc]
    rfl

end Runs

/-- Straight segments of which each leaves a word, a value or nothing when it runs alone: each of
them gives its own piece of the whole, whatever stands before and behind it. -/
theorem evaluate_segments {e : Expression} {segments : List Segment}
    (written : e.operations = segments.flatMap Segment.code) (short : e.operations.length ≤ 4096)
    (nonempty : segments ≠ []) (straight : ∀ g ∈ segments, g.IsStraight) {s : Surroundings}
    (usable : ∀ g ∈ segments, (g.place? s).isSome) :
    ∃ pieces, pieces.map some = segments.map (·.piece? s) ∧
      e.evaluate s = .ok (.pieces pieces) := by
  obtain ⟨spare, budget⟩ : ∃ spare, maxSteps = e.operations.length + spare :=
    Nat.exists_eq_add_of_le short
  obtain ⟨pieces, alone⟩ : segments.map (·.piece? s) ∈ Set.range (List.map some) := by
    rw [Set.range_list_map]
    refine List.forall_mem_map.2 fun g listed => ?_
    obtain ⟨place, left⟩ := Option.isSome_iff_exists.1 (usable g listed)
    exact ⟨⟨g.size, place⟩, by rw [Segment.piece?, left, Option.map_some]⟩
  refine ⟨pieces, alone, ?_⟩
  have begins : e.operations.drop 0 = segments.flatMap Segment.code := written
  have ran := run_segments straight alone begins [] spare
  rw [← written, ← budget, List.append_nil] at ran
  have listed : pieces.reverse ≠ [] := by
    intro none
    rw [List.reverse_eq_nil_iff.1 none, List.map_nil, eq_comm, List.map_eq_nil_iff] at alone
    exact nonempty alone
  obtain ⟨latest, before, reversed⟩ := List.exists_cons_of_ne_nil listed
  have forward : (latest :: before).reverse = pieces := by rw [← reversed, List.reverse_reverse]
  rw [Expression.evaluate, Expression.evaluateFrom, ran, reversed]
  exact congrArg (Except.ok ∘ Result.pieces) forward

def scattered : List Segment :=
  [⟨.ofOperations [.const 0x2000], 4⟩, ⟨.ofOperations [.register 0], 2⟩, ⟨.ofOperations [], 1⟩,
    ⟨.ofOperations [.registerOffset 1 4, .const 3, .pick 1, .binary .plus, .swap, .drop,
      .stackValue], 4⟩]

def scatteredBytes : List UInt8 :=
  [0x03, 0x00, 0x20, 0x00, 0x00, 0x93, 0x04, 0x50, 0x93, 0x02, 0x93, 0x01, 0x71, 0x04, 0x33, 0x14,
    0x22, 0x16, 0x13, 0x9f, 0x93, 0x04]

theorem evaluate_segments_scattered : ∃ e, Expression.decode scatteredBytes = .ok e ∧
    e.operations = scattered.flatMap Segment.code ∧
    e.evaluate (holding (some 5) 0) = .ok (.pieces [⟨4, .address 0x2000⟩, ⟨2, .value 5⟩,
      ⟨1, .empty⟩, ⟨4, .value 12⟩]) := by
  obtain ⟨e, decoded, written⟩ : ∃ e, Expression.decode scatteredBytes = .ok e ∧
      e.operations = scattered.flatMap Segment.code := exists_ok (by cbv)
  have short : e.operations.length ≤ 4096 := by
    rw [written]
    decide
  obtain ⟨pieces, alone, evaluated⟩ := evaluate_segments written short (by decide) (by decide)
    (s := holding (some 5) 0) (by decide)
  have given : scattered.map (·.piece? (holding (some 5) 0)) =
      [⟨4, .address 0x2000⟩, ⟨2, .value 5⟩, ⟨1, .empty⟩, ⟨4, .value 12⟩].map some := by decide
  rw [given] at alone
  obtain rfl := List.map_injective_iff.2 (Option.some_injective Piece) alone
  exact ⟨e, decoded, written, evaluated⟩

end SourceScope.Location
