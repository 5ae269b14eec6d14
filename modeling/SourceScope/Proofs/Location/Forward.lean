import SourceScope.Proofs.Location.Errors
import SourceScope.Proofs.Location.Segments

set_option autoImplicit false

namespace SourceScope.Location

def Operation.isForward : Operation → Bool
  | .branch target | .skip target => 0 ≤ target
  | _ => true

def Operation.asksFrameBase : Operation → Bool
  | .frameOffset _ => true
  | _ => false

inductive Machine.Executes (e : Expression) (s : Surroundings) :
    (count : Nat) → Machine → Machine → Prop where
  | zero (m : Machine) : Executes e s 0 m m
  | succ {count : Nat} {m moved reached : Machine} {placed : Placed}
      (here : e.placed[m.next]? = some placed)
      (stepped : Machine.step e s { m with next := m.next + 1 } placed.operation = .ok moved)
      (later : Executes e s count moved reached) : Executes e s (count + 1) m reached

/-- The operation at the machine's byte is a branch that is taken, to a byte that is neither the start
of an operation nor the end. -/
def Machine.Strays (bytes : List UInt8) (e : Expression) (m : Machine) : Prop :=
  ∃ operation after target, operationAt bytes (e.offsetAt m.next) = .ok (operation, after) ∧
    operation.jump? m.stack = some target ∧
    ∀ position ∈ boundaries bytes, (position : Int) ≠ after + target.toInt

theorem Swept.offsetAt_lt {bytes : List UInt8} {position i j : Nat} {placed : List Placed}
    (swept : Swept bytes position placed) (before : i < j) (inside : j ≤ placed.length) :
    Expression.offsetAt ⟨placed, bytes.length⟩ i < Expression.offsetAt ⟨placed, bytes.length⟩ j := by
  induction swept generalizing i j with
  | done => exact absurd (Nat.lt_of_lt_of_le before inside) (Nat.not_lt_zero i)
  | @next position after operation later here forward rest ih =>
    obtain ⟨j, rfl⟩ : ∃ less, j = less + 1 := ⟨j - 1, by omega⟩
    have inside : j ≤ later.length := Nat.le_of_succ_le_succ inside
    cases i with
    | succ i => exact ih (Nat.lt_of_succ_lt_succ before) inside
    | zero =>
      have first : Expression.offsetAt ⟨later, bytes.length⟩ 0 = after := rest.offsetAt_zero
      have further : after ≤ Expression.offsetAt ⟨later, bytes.length⟩ j := by
        rcases Nat.eq_zero_or_pos j with rfl | positive
        · exact first.ge
        · exact first ▸ (ih positive inside).le
      exact Nat.lt_of_lt_of_le forward further

section Steps

variable {e : Expression} {s : Surroundings} {m moved reached : Machine} {operation : Operation}
  {target : Int16} {count steps : Nat}

theorem mem_operations {placed : Placed} {index : Nat} (here : e.placed[index]? = some placed) :
    placed.operation ∈ e.operations :=
  List.mem_map_of_mem (List.mem_of_getElem? here)

theorem nonneg_of_jump (forward : operation.isForward = true) {stack : List UInt32}
    (jumps : operation.jump? stack = some target) : 0 ≤ target.toInt := by
  have nonneg : 0 ≤ target := by
    cases operation with
    | skip =>
      cases jumps
      simpa [Operation.isForward] using forward
    | branch =>
      rcases stack with _ | ⟨top, rest⟩
      · cases jumps
      · by_cases zero : top = 0 <;> simp [Operation.jump?, zero] at jumps
        simpa [Operation.isForward, jumps] using forward
    | _ => cases jumps
  exact Int16.le_iff_toInt_le.1 nonneg

theorem next_of_step_ok (stepped : Machine.step e s m operation = .ok moved) :
    moved.next = m.next ∨
      ∃ target, operation.jump? m.stack = some target ∧
        e.branchIndex m.next target = .ok moved.next := by
  obtain ⟨next, stack, value, pieces⟩ := m
  cases operation with
  | skip target =>
    obtain ⟨index, found, same⟩ := bind_eq_ok.1 stepped
    cases same
    exact .inr ⟨target, rfl, found⟩
  | branch target =>
    rcases stack with _ | ⟨top, rest⟩
    · cases stepped
    by_cases zero : top = 0
    · subst zero
      cases stepped
      exact .inl rfl
    have jumps : Operation.jump? (top :: rest) (.branch target) = some target := if_neg zero
    simp only [Machine.step] at stepped
    obtain ⟨index, found, same⟩ := bind_eq_ok.1 stepped
    cases same
    exact .inr ⟨target, jumps, found⟩
  | piece size =>
    cases stepped
    exact .inl rfl
  | _ => exact .inl (next_of_step rfl stepped)

theorem step_of_jump {cause : LocationError} (jumps : operation.jump? m.stack = some target)
    (failed : e.branchIndex m.next target = .error cause) :
    Machine.step e s m operation = .error cause := by
  obtain ⟨next, stack, value, pieces⟩ := m
  cases operation with
  | skip =>
    cases jumps
    exact map_eq_error.2 failed
  | branch =>
    rcases stack with _ | ⟨top, rest⟩
    · cases jumps
    by_cases zero : top = 0 <;> simp [Operation.jump?, zero] at jumps
    subst jumps
    simp only [Machine.step]
    exact map_eq_error.2 failed
  | _ => cases jumps

theorem run_executes (executes : Machine.Executes e s count m reached) (steps : Nat) :
    Machine.run e s (count + steps) m = Machine.run e s steps reached := by
  induction executes with
  | zero m => rw [Nat.zero_add]
  | succ here stepped later ih =>
    rw [Nat.add_right_comm, Machine.run, here]
    simp only [stepped]
    exact ih

end Steps

section Decoded

variable {bytes : List UInt8} {e : Expression} {s : Surroundings} {m moved reached : Machine}
  {placed : Placed} {count steps : Nat}

variable (length : e.length = bytes.length) (swept : Swept bytes 0 e.placed)
  (forward : ∀ operation ∈ e.operations, operation.isForward = true)

include length

theorem exists_placed_of_strays (strays : m.Strays bytes e) :
    ∃ placed, e.placed[m.next]? = some placed := by
  rw [← Option.isSome_iff_exists, Option.isSome_iff_ne_none]
  intro beyond
  obtain ⟨operation, after, target, read, -⟩ := strays
  obtain ⟨cause, ends⟩ := operationAt_length bytes
  have offset : e.offsetAt m.next = bytes.length := by
    simp [Expression.offsetAt, beyond, length]
  rw [offset, ends] at read
  cases read

include swept

theorem le_branchIndex {next index : Nat} {target : Int16} (inside : next ≤ e.placed.length)
    (nonneg : 0 ≤ target.toInt) (found : e.branchIndex next target = .ok index) :
    next ≤ index ∧ index ≤ e.placed.length := by
  unfold Expression.branchIndex at found
  simp only at found
  split at found
  · cases found
    exact ⟨inside, Nat.le_refl _⟩
  split at found
  next other hit =>
    cases found
    obtain ⟨bound, destination, -⟩ := List.findIdx?_eq_some_iff_getElem.1 hit
    have offset : e.offsetAt index = e.placed[index].offset := by
      simp [Expression.offsetAt, bound]
    rw [beq_iff_eq, ← offset] at destination
    refine ⟨Nat.le_of_not_lt fun before => ?_, bound.le⟩
    have earlier : e.offsetAt index < e.offsetAt next := by
      have ascending := swept.offsetAt_lt before inside
      rwa [← length] at ascending
    omega
  next => cases found

theorem branchIndex_error_iff (next : Nat) (target : Int16) :
    e.branchIndex next target = .error .badBranch ↔
      ∀ position ∈ boundaries bytes, (position : Int) ≠ e.offsetAt next + target.toInt := by
  have lands := branchIndex_offset length swept next target
  constructor
  · intro failed position boundary destination
    rw [failed, land_eq boundary destination] at lands
    cases lands
  · intro outside
    rw [land_eq_error outside] at lands
    cases found : e.branchIndex next target with
    | ok index =>
      rw [found] at lands
      cases lands
    | error cause => rw [branchIndex_error found]

theorem strays_iff (here : e.placed[m.next]? = some placed) :
    m.Strays bytes e ↔ ∃ target, placed.operation.jump? m.stack = some target ∧
      e.branchIndex (m.next + 1) target = .error .badBranch := by
  have offset : e.offsetAt m.next = placed.offset := by simp [Expression.offsetAt, here]
  have read := (swept.getElem? here).2
  rw [← length, ← offset] at read
  simp only [branchIndex_error_iff length swept]
  constructor
  · rintro ⟨operation, after, target, same, jumps, outside⟩
    cases read.symm.trans same
    exact ⟨target, jumps, outside⟩
  · rintro ⟨target, jumps, outside⟩
    exact ⟨_, _, target, read, jumps, outside⟩

theorem step_of_strays (here : e.placed[m.next]? = some placed) (strays : m.Strays bytes e) :
    Machine.step e s { m with next := m.next + 1 } placed.operation = .error .badBranch := by
  obtain ⟨target, jumps, failed⟩ := (strays_iff length swept here).1 strays
  exact step_of_jump jumps failed

theorem run_of_strays (executes : Machine.Executes e s count m reached)
    (strays : reached.Strays bytes e) (fewer : count < steps) :
    Machine.run e s steps m = .error .badBranch := by
  obtain ⟨placed, here⟩ := exists_placed_of_strays length strays
  obtain ⟨spare, rfl⟩ : ∃ spare, steps = count + (spare + 1) := ⟨steps - count - 1, by omega⟩
  rw [run_executes executes, Machine.run, here]
  simp only [step_of_strays length swept here strays]

theorem strays_of_step (unframed : ∀ operation ∈ e.operations, operation.asksFrameBase = false)
    (unwound : s.callFrameAddress ≠ .error .badBranch) (here : e.placed[m.next]? = some placed)
    (failed : Machine.step e s { m with next := m.next + 1 } placed.operation =
      .error .badBranch) : m.Strays bytes e := by
  rcases step_error failed with raised | ⟨operand, asks, -⟩ | ⟨-, missing⟩ | jump
  · cases raised
  · have never := unframed _ (mem_operations here)
    rw [asks] at never
    cases never
  · exact absurd missing unwound
  · exact (strays_iff length swept here).2 jump

include forward

theorem step_forward (here : e.placed[m.next]? = some placed)
    (stepped : Machine.step e s { m with next := m.next + 1 } placed.operation = .ok moved) :
    m.next < moved.next ∧ moved.next ≤ e.placed.length := by
  obtain ⟨inside, -⟩ := List.getElem?_eq_some_iff.1 here
  rcases next_of_step_ok stepped with same | ⟨target, jumps, found⟩
  · simp only at same
    omega
  · have nonneg := nonneg_of_jump (forward _ (mem_operations here)) jumps
    exact le_branchIndex length swept inside nonneg found

theorem Machine.Executes.ahead (executes : Machine.Executes e s count m reached)
    (inside : m.next ≤ e.placed.length) :
    m.next + count ≤ reached.next ∧ reached.next ≤ e.placed.length := by
  induction executes with
  | zero m => exact ⟨Nat.le_refl _, inside⟩
  | succ here stepped later ih =>
    obtain ⟨further, within⟩ := step_forward length swept forward here stepped
    have rest := ih within
    omega

theorem exists_strays_of_run
    (unframed : ∀ operation ∈ e.operations, operation.asksFrameBase = false)
    (unwound : s.callFrameAddress ≠ .error .badBranch) (enough : e.placed.length ≤ m.next + steps)
    (failed : Machine.run e s steps m = .error .badBranch) :
    ∃ count reached, Machine.Executes e s count m reached ∧ reached.Strays bytes e := by
  induction steps generalizing m with
  | zero =>
    have beyond : e.placed[m.next]? = none := List.getElem?_eq_none enough
    rw [Machine.run, beyond] at failed
    cases failed
  | succ steps ih =>
    rw [Machine.run] at failed
    cases here : e.placed[m.next]? with
    | none =>
      rw [here] at failed
      cases failed
    | some placed =>
      simp only [here] at failed
      cases stepped : Machine.step e s { m with next := m.next + 1 } placed.operation with
      | error cause =>
        rw [stepped] at failed
        cases failed
        exact ⟨0, m, .zero m, strays_of_step length swept unframed unwound here stepped⟩
      | ok moved =>
        rw [stepped] at failed
        obtain ⟨further, -⟩ := step_forward length swept forward here stepped
        obtain ⟨count, reached, executes, strays⟩ := ih (by omega) failed
        exact ⟨count + 1, reached, .succ here stepped executes, strays⟩

end Decoded

/-- Where no branch goes backward and no frame base is asked for, a bad branch is always one that was
executed and misses, and the bound on the operations is never what ends the evaluation. -/
theorem evaluateFrom_badBranch_iff {bytes : List UInt8} {e : Expression}
    (decoded : Expression.decode bytes = .ok e) (short : e.operations.length ≤ 4096)
    (forward : ∀ operation ∈ e.operations, operation.isForward = true)
    (unframed : ∀ operation ∈ e.operations, operation.asksFrameBase = false) (env : Environment)
    (stack : List UInt32) :
    (e.evaluateFrom env.surroundings stack = .error .badBranch ↔
      ∃ count reached, Machine.Executes e env.surroundings count ⟨0, stack, none, []⟩ reached ∧
        reached.Strays bytes e) ∧
    ∀ count reached, Machine.Executes e env.surroundings count ⟨0, stack, none, []⟩ reached →
      (e.placed[reached.next]?).isSome → count < maxSteps := by
  obtain ⟨length, swept⟩ := decode_swept decoded
  rw [Expression.operations, List.length_map] at short
  have unwound : env.callFrameAddress ≠ .error .badBranch := by
    intro missing
    rcases callFrameAddress_error missing with other | ⟨inner, other⟩ <;> cases other
  have ends (m : Machine) : m.result ≠ .error .badBranch := by
    unfold Machine.result
    split <;> simp
  have bounded (count : Nat) (reached : Machine)
      (executes : Machine.Executes e env.surroundings count ⟨0, stack, none, []⟩ reached)
      (more : (e.placed[reached.next]?).isSome) : count < maxSteps := by
    obtain ⟨ahead, -⟩ := executes.ahead length swept forward (Nat.zero_le _)
    have inside : reached.next < e.placed.length := by simpa using more
    simp only [maxSteps] at ahead ⊢
    omega
  refine ⟨⟨fun failed => ?_, ?_⟩, bounded⟩
  · rcases bind_eq_error.1 failed with failed | ⟨m, -, failed⟩
    · refine exists_strays_of_run length swept forward unframed unwound ?_ failed
      rwa [Nat.zero_add]
    · exact absurd failed (ends m)
  · rintro ⟨count, reached, executes, strays⟩
    obtain ⟨placed, here⟩ := exists_placed_of_strays length strays
    have fewer := bounded count reached executes (by rw [here]; rfl)
    exact bind_eq_error.2 (.inl (run_of_strays length swept executes strays fewer))

def guarded : List UInt8 := [0x28, 0x02, 0x00, 0x0c, 0x00, 0x00, 0x00, 0x20, 0x2f, 0x00, 0x00]

def guardedDecoded : Expression where
  placed := [⟨0, .branch 2⟩, ⟨3, .const 0x20000000⟩, ⟨8, .skip 0⟩]
  length := 11

def nothingKnown : Environment := ⟨⟨fun _ => none, fun _ => none⟩, 0, none, none⟩

theorem evaluateFrom_badBranch_guarded :
    Expression.decode guarded = .ok guardedDecoded ∧
      (∃ count reached, Machine.Executes guardedDecoded nothingKnown.surroundings count
        ⟨0, [1], none, []⟩ reached ∧ reached.Strays guarded guardedDecoded) ∧
      guardedDecoded.evaluateFrom nothingKnown.surroundings [0] = .ok (.address 0x20000000) ∧
      ∀ count reached, Machine.Executes guardedDecoded nothingKnown.surroundings count
        ⟨0, [0], none, []⟩ reached → ¬reached.Strays guarded guardedDecoded := by
  have decoded : Expression.decode guarded = .ok guardedDecoded := by cbv
  have taken := evaluateFrom_badBranch_iff decoded (by decide) (by decide) (by decide) nothingKnown [1]
  have passed := evaluateFrom_badBranch_iff decoded (by decide) (by decide) (by decide) nothingKnown [0]
  refine ⟨decoded, taken.1.1 rfl, rfl, fun count reached executes strays => ?_⟩
  have failed := passed.1.2 ⟨count, reached, executes, strays⟩
  cases failed

end SourceScope.Location
