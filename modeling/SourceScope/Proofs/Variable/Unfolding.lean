import Mathlib.Data.List.Forall2
import SourceScope.Proofs.Variable.Fresh

set_option autoImplicit false

namespace SourceScope

namespace TypeTable

def sizeAt (types : TypeTable) (id : TypeId) : UInt32 := ((types.get? id).map (·.size)).getD 0

structure Step where
  -- Which of the parts it is.
  index : Nat
  name : String
  type : TypeId
  -- Where the part is in the whole.
  place : VariablePlace

inductive HasStep (types : TypeTable) (id : TypeId) : Step → Prop where
  | field {type : SourceType} {isUnion : Bool} {members : List Member} {i : Nat} {name : String}
      {part : TypeId} {offset : UInt32} (found : types.get? id = some type)
      (shape : type.shape = .composite isUnion members)
      (listed : members[i]? = some ⟨name, part, .offset offset⟩) :
      HasStep types id ⟨i, name, part, .offset offset⟩
  | computed {type : SourceType} {isUnion : Bool} {members : List Member} {i : Nat} {name : String}
      {part : TypeId} {e : Location.Expression} (found : types.get? id = some type)
      (shape : type.shape = .composite isUnion members)
      (listed : members[i]? = some ⟨name, part, .expression e⟩) :
      HasStep types id ⟨i, name, part, .member e⟩
  | element {type : SourceType} {element : TypeId} {count : UInt32} {i : Nat}
      (found : types.get? id = some type) (shape : type.shape = .array element count)
      (inside : i < count.toNat) :
      HasStep types id
        ⟨i, s!"[{i}]", element, .offset (UInt32.ofNat (i * (types.sizeAt element).toNat))⟩
  | target {type : SourceType} {target : TypeId} (found : types.get? id = some type)
      (shape : type.shape = .pointer (some target)) : HasStep types id ⟨0, "*", target, .target⟩

inductive Walk (types : TypeTable) : TypeId → List Step → Prop where
  | nil {id : TypeId} : Walk types id []
  | cons {id : TypeId} {step : Step} {rest : List Step} (first : types.HasStep id step)
      (later : Walk types step.type rest) : Walk types id (step :: rest)

/-- No step of the walk has a sibling of the same name. -/
def Unambiguous (types : TypeTable) : TypeId → List Step → Prop
  | _, [] => True
  | id, step :: rest =>
    (∀ other, types.HasStep id other → other.name = step.name → other = step) ∧
      Unambiguous types step.type rest

def indices (walk : List Step) : List Nat := walk.map (·.index)

/-- Where the walks part, the first one takes the earlier step. -/
def LeftOf (first second : List Step) : Prop := List.Lex (· < ·) (indices first) (indices second)

def stepTo (i : Nat) (part : String × TypeId × VariablePlace) : Step :=
  ⟨i, part.1, part.2.1, part.2.2⟩

def steps (types : TypeTable) (id : TypeId) : List Step :=
  (Variable.partsOf types id).mapIdx stepTo

def walks (types : TypeTable) : (length : Nat) → TypeId → List (List Step)
  | 0, _ => [[]]
  | length + 1, id =>
    (types.steps id).flatMap fun step => (types.walks length step.type).map (step :: ·)

variable {types : TypeTable} {id : TypeId} {step : Step}

theorem partsOf_array {type : SourceType} {element : TypeId} {count : UInt32}
    (found : types.get? id = some type) (shape : type.shape = .array element count) :
    Variable.partsOf types id = (List.range count.toNat).map fun i =>
      (s!"[{i}]", element, .offset (UInt32.ofNat (i * (types.sizeAt element).toNat))) := by
  obtain ⟨name, size, _, isSigned, isConst, isVolatile, isFloat, offset⟩ := type
  subst shape
  simp only [Variable.partsOf, found, UInt32.ofNat_mul, UInt32.ofNat_toNat]
  rfl

theorem partsOf_pointer {type : SourceType} {target : TypeId} (found : types.get? id = some type)
    (shape : type.shape = .pointer (some target)) :
    Variable.partsOf types id = [("*", target, .target)] := by
  obtain ⟨name, size, _, isSigned, isConst, isVolatile, isFloat, offset⟩ := type
  subst shape
  simp only [Variable.partsOf, found]

theorem getElem?_partsOf (taken : types.HasStep id step) :
    (Variable.partsOf types id)[step.index]? = some (step.name, step.type, step.place) := by
  cases taken with
  | @field type _ _ _ _ _ _ found shape listed | @computed type _ _ _ _ _ _ found shape listed =>
    obtain ⟨name, size, _, isSigned, isConst, isVolatile, isFloat, offset⟩ := type
    subst shape
    simp [Variable.partsOf, found, listed]
  | element found shape inside =>
    rw [partsOf_array found shape]
    simp [inside]
  | target found shape =>
    rw [partsOf_pointer found shape]
    rfl

theorem hasStep_of_getElem? {i : Nat} {part : String × TypeId × VariablePlace}
    (listed : (Variable.partsOf types id)[i]? = some part) : types.HasStep id (stepTo i part) := by
  cases found : types.get? id with
  | none => simp [Variable.partsOf, found] at listed
  | some type =>
    obtain ⟨name, size, shape, isSigned, isConst, isVolatile, isFloat, offset⟩ := type
    cases shape with
    | base => simp [Variable.partsOf, found] at listed
    | pointer target =>
      cases target with
      | none => simp [Variable.partsOf, found] at listed
      | some target =>
        rw [partsOf_pointer found rfl] at listed
        obtain ⟨rfl, rfl⟩ : i = 0 ∧ ("*", target, .target) = part := by
          simpa [List.getElem?_singleton] using listed
        exact .target found rfl
    | array element count =>
      rw [partsOf_array found rfl, List.getElem?_map, Option.map_eq_some_iff] at listed
      obtain ⟨j, numbered, rfl⟩ := listed
      obtain ⟨inside, rfl⟩ := List.getElem?_eq_some_iff.1 numbered
      rw [List.length_range] at inside
      rw [List.getElem_range]
      exact .element found rfl inside
    | composite isUnion members =>
      simp only [Variable.partsOf, found, List.getElem?_map, Option.map_eq_some_iff] at listed
      obtain ⟨⟨name, part, place⟩, listed, rfl⟩ := listed
      cases place with
      | offset offset => exact .field found rfl listed
      | expression e => exact .computed found rfl listed

theorem getElem?_steps (types : TypeTable) (id : TypeId) (i : Nat) :
    (types.steps id)[i]? = ((Variable.partsOf types id)[i]?).map (stepTo i) :=
  List.getElem?_mapIdx

theorem getElem?_steps_of_hasStep (taken : types.HasStep id step) :
    (types.steps id)[step.index]? = some step := by
  rw [getElem?_steps, getElem?_partsOf taken]
  rfl

theorem mem_steps_iff : step ∈ types.steps id ↔ types.HasStep id step := by
  rw [List.mem_iff_getElem?]
  constructor
  · rintro ⟨i, listed⟩
    rw [getElem?_steps, Option.map_eq_some_iff] at listed
    obtain ⟨part, listed, rfl⟩ := listed
    exact hasStep_of_getElem? listed
  · exact fun taken => ⟨step.index, getElem?_steps_of_hasStep taken⟩

theorem mem_walks_iff {length : Nat} {walk : List Step} :
    walk ∈ types.walks length id ↔ types.Walk id walk ∧ walk.length = length := by
  induction length generalizing id walk with
  | zero =>
    rw [walks, List.mem_singleton, List.length_eq_zero_iff]
    exact ⟨fun empty => ⟨empty ▸ .nil, empty⟩, And.right⟩
  | succ length ih =>
    simp only [walks, List.mem_flatMap, List.mem_map, mem_steps_iff, ih]
    constructor
    · rintro ⟨step, taken, rest, ⟨later, rfl⟩, rfl⟩
      exact ⟨.cons taken later, rfl⟩
    · rintro ⟨steps, long⟩
      cases steps with
      | nil => cases long
      | cons taken later => exact ⟨_, taken, _, ⟨later, Nat.succ.inj long⟩, rfl⟩

theorem steps_ordered (types : TypeTable) (id : TypeId) :
    (types.steps id).Pairwise fun first second => first.index < second.index := by
  rw [List.pairwise_iff_getElem]
  intro i j _ _ before
  simpa [steps, stepTo] using before

theorem walks_ordered (types : TypeTable) (length : Nat) (id : TypeId) :
    (types.walks length id).Pairwise LeftOf := by
  induction length generalizing id with
  | zero => exact List.pairwise_singleton _ _
  | succ length ih =>
    rw [walks, List.pairwise_flatMap]
    refine ⟨fun step _ => ?_, (steps_ordered types id).imp fun before => ?_⟩
    · refine List.pairwise_map.2 ((ih step.type).imp fun before => ?_)
      exact .cons before
    · simp only [List.mem_map]
      rintro _ ⟨first, -, rfl⟩ _ ⟨second, -, rfl⟩
      exact .rel before

end TypeTable

namespace Variable

open TypeTable

variable {types : TypeTable} {depth : Nat} {v part : Variable} {step : Step}

/-- The parts of the variable were laid out to a depth. They may have been evaluated since. -/
def LaidOut (types : TypeTable) (depth : Nat) (v : Variable) : Prop :=
  forgetAll v.parts = layOut types depth v.type

structure Carries (types : TypeTable) (step : Step) (node : Variable) : Prop where
  name : node.name = step.name
  type : node.type = step.type
  size : node.size = types.sizeAt step.type
  place : node.place = step.place

def level : (depth : Nat) → Variable → List Variable
  | 0, v => [v]
  | depth + 1, v => v.parts.flatMap (level depth)

def node? : List Nat → Variable → Option Variable
  | [], v => some v
  | i :: path, v => v.parts[i]?.bind (node? path)

structure Reaches (types : TypeTable) (v node : Variable) (walk : List Step) : Prop where
  at_ : v.node? (indices walk) = some node
  carries : ∀ step ∈ walk.getLast?, node.Carries types step

theorem make_laidOut (types : TypeTable) (depth : Nat) (name : String) (type : TypeId)
    (size : UInt32) (place : VariablePlace) :
    (make types depth name type size place).LaidOut types depth :=
  layOut_fresh types depth type

theorem LaidOut.parts_zero (laidOut : v.LaidOut types 0) : v.parts = [] := by
  rw [LaidOut, forgetAll_eq_map, layOut] at laidOut
  exact List.map_eq_nil_iff.1 laidOut

theorem LaidOut.getElem?_parts (laidOut : v.LaidOut types (depth + 1)) (i : Nat) :
    (v.parts[i]?).map forget = ((partsOf types v.type)[i]?).map fun p =>
      make types depth p.1 p.2.1 (types.sizeAt p.2.1) p.2.2 := by
  rw [LaidOut, forgetAll_eq_map, layOut] at laidOut
  rw [← List.getElem?_map, laidOut, List.getElem?_map]
  rfl

theorem carries_of_forget (same : part.forget =
      make types depth step.name step.type (types.sizeAt step.type) step.place) :
    part.Carries types step ∧ part.LaidOut types depth := by
  obtain ⟨name, type, size, file, line, place, resolution, parts⟩ := part
  simp only [forget, make, unevaluated, Variable.mk.injEq] at same
  obtain ⟨rfl, rfl, rfl, -, -, rfl, -, parts⟩ := same
  exact ⟨⟨rfl, rfl, rfl, rfl⟩, parts⟩

theorem LaidOut.exists_part (laidOut : v.LaidOut types (depth + 1))
    (taken : types.HasStep v.type step) :
    ∃ part, v.parts[step.index]? = some part ∧ part.Carries types step ∧
      part.LaidOut types depth := by
  have same := laidOut.getElem?_parts step.index
  rw [getElem?_partsOf taken, Option.map_some, Option.map_eq_some_iff] at same
  obtain ⟨part, at_, same⟩ := same
  exact ⟨part, at_, carries_of_forget same⟩

theorem LaidOut.exists_step (laidOut : v.LaidOut types (depth + 1)) {i : Nat}
    (at_ : v.parts[i]? = some part) :
    ∃ step, step.index = i ∧ types.HasStep v.type step ∧ part.Carries types step ∧
      part.LaidOut types depth := by
  have same := laidOut.getElem?_parts i
  rw [at_, Option.map_some, eq_comm, Option.map_eq_some_iff] at same
  obtain ⟨p, listed, same⟩ := same
  exact ⟨stepTo i p, rfl, hasStep_of_getElem? listed, carries_of_forget same.symm⟩

theorem LaidOut.parts_steps (laidOut : v.LaidOut types (depth + 1)) :
    List.Forall₂ (fun part step => v.parts[step.index]? = some part ∧ part.Carries types step ∧
      part.LaidOut types depth) v.parts (types.steps v.type) := by
  have length := congrArg List.length laidOut
  rw [forgetAll_eq_map, List.length_map, layOut, List.length_map] at length
  refine List.forall₂_iff_get.2 ⟨by rw [length, steps, List.length_mapIdx], fun i inside _ => ?_⟩
  have at_ := List.getElem?_eq_getElem inside
  obtain ⟨step, rfl, taken, carries, later⟩ := laidOut.exists_step at_
  obtain ⟨_, same⟩ := List.getElem?_eq_some_iff.1 (getElem?_steps_of_hasStep taken)
  rw [List.get_eq_getElem, List.get_eq_getElem, same]
  exact ⟨at_, carries, later⟩

theorem Reaches.cons {node : Variable} {walk : List Step}
    (at_ : v.parts[step.index]? = some part) (carries : part.Carries types step)
    (reaches : part.Reaches types node walk) :
    v.Reaches types node (step :: walk) := by
  constructor
  · rw [indices, List.map_cons, node?, at_]
    exact reaches.at_
  · rw [List.getLast?_cons]
    rintro _ ⟨⟩
    cases last : walk.getLast? with
    | some later => exact reaches.carries later last
    | none =>
      obtain rfl := List.getLast?_eq_none_iff.1 last
      cases reaches.at_
      exact carries

theorem level_walks (laidOut : v.LaidOut types depth) {d : Nat} (within : d ≤ depth) :
    List.Forall₂ (v.Reaches types) (v.level d) (types.walks d v.type) := by
  induction d generalizing v depth with
  | zero => exact .cons ⟨rfl, nofun⟩ .nil
  | succ d ih =>
    obtain ⟨depth, rfl⟩ : ∃ less, depth = less + 1 := ⟨depth - 1, by omega⟩
    rw [level, walks]
    -- Parts and steps go side by side, and so does what comes behind each of them.
    refine List.rel_flatMap laidOut.parts_steps fun part step ⟨at_, carries, later⟩ => ?_
    rw [List.forall₂_map_right_iff, ← carries.type]
    exact (ih later (Nat.le_of_succ_le_succ within)).imp fun node walk => Reaches.cons at_ carries

theorem level_beyond (laidOut : v.LaidOut types depth) {d : Nat} (beyond : depth < d) :
    v.level d = [] := by
  induction d generalizing v depth with
  | zero => exact absurd beyond (Nat.not_lt_zero depth)
  | succ d ih =>
    rw [level, List.flatMap_eq_nil_iff]
    intro part member
    cases depth with
    | zero => rw [laidOut.parts_zero] at member; cases member
    | succ depth =>
      obtain ⟨i, at_⟩ := List.mem_iff_getElem?.1 member
      obtain ⟨step, -, -, -, later⟩ := laidOut.exists_step at_
      exact ih later (Nat.lt_of_succ_lt_succ beyond)

theorem LaidOut.find?_part (laidOut : v.LaidOut types (depth + 1))
    (taken : types.HasStep v.type step)
    (only : ∀ other, types.HasStep v.type other → other.name = step.name → other = step) :
    ∃ part, v.parts[step.index]? = some part ∧ part.Carries types step ∧
      part.LaidOut types depth ∧ v.parts.find? (·.name == step.name) = some part := by
  obtain ⟨part, at_, carries, later⟩ := laidOut.exists_part taken
  refine ⟨part, at_, carries, later, ?_⟩
  cases found : v.parts.find? (·.name == step.name) with
  | none =>
    have missed := List.find?_eq_none.1 found part (List.mem_of_getElem? at_)
    simp [carries.name] at missed
  -- The first part of that name comes from a step as well, and there is only one.
  | some first =>
    have named : first.name = step.name := by simpa using List.find?_some found
    obtain ⟨i, there⟩ := List.mem_iff_getElem?.1 (List.mem_of_find?_eq_some found)
    obtain ⟨other, rfl, taken', carries', -⟩ := laidOut.exists_step there
    obtain rfl := only other taken' (carries'.name.symm.trans named)
    exact there.symm.trans at_

theorem exists_part?_eq (laidOut : v.LaidOut types depth) {walk : List Step}
    (steps : types.Walk v.type walk) (short : walk.length ≤ depth) (moves : walk ≠ [])
    (unambiguous : types.Unambiguous v.type walk) :
    ∃ node, v.Reaches types node walk ∧ v.part? (walk.map (·.name)) = some node := by
  induction walk generalizing v depth with
  | nil => exact absurd rfl moves
  | cons step rest ih =>
    obtain ⟨depth, rfl⟩ : ∃ less, depth = less + 1 := ⟨depth - 1, by simp at short; omega⟩
    cases steps with
    | cons taken later =>
      obtain ⟨only, unambiguous⟩ := unambiguous
      obtain ⟨part, at_, carries, inner, found⟩ := laidOut.find?_part taken only
      cases rest with
      | nil => exact ⟨part, .cons at_ carries ⟨rfl, nofun⟩, found⟩
      | cons next rest =>
        rw [← carries.type] at later unambiguous
        obtain ⟨node, reaches, path⟩ :=
          ih inner later (Nat.le_of_succ_le_succ short) (List.cons_ne_nil next rest) unambiguous
        refine ⟨node, .cons at_ carries reaches, ?_⟩
        simp only [List.map_cons, part?, found, Option.bind_some]
        exact path

/-- The tree of a variable is the unfolding of its type, cut at a depth: its nodes of each depth are
the walks of that length, in their order, and a path of names leads to the node of its walk wherever no
name on the way is shared with a sibling. -/
theorem make_unfolds (types : TypeTable) (depth : Nat) (name : String) (type : TypeId)
    (size : UInt32) (place : VariablePlace) :
    (∀ d ≤ depth, ∃ walks : List (List Step),
      (∀ walk, walk ∈ walks ↔ types.Walk type walk ∧ walk.length = d) ∧
      walks.Pairwise LeftOf ∧
      List.Forall₂ ((make types depth name type size place).Reaches types)
        ((make types depth name type size place).level d) walks) ∧
    (∀ d, depth < d → (make types depth name type size place).level d = []) ∧
    ∀ walk, types.Walk type walk → walk.length ≤ depth → walk ≠ [] →
      types.Unambiguous type walk →
        ∃ node, (make types depth name type size place).Reaches types node walk ∧
          (make types depth name type size place).part? (walk.map (·.name)) = some node := by
  have laidOut := make_laidOut types depth name type size place
  refine ⟨fun d within => ?_, fun d => level_beyond laidOut, fun walk => exists_part?_eq laidOut⟩
  exact ⟨types.walks d type, fun walk => mem_walks_iff, walks_ordered types d type,
    level_walks laidOut within⟩

def chain : TypeTable where
  slots := #[some (.plain "int" 4 .base 16),
    some (.plain "node" 8 (.composite false [⟨"value", 0, .offset 0⟩, ⟨"next", 2, .offset 4⟩]) 32),
    some (.plain "node *" 4 (.pointer (some 1)) 48)]
  numbers := [(16, 0), (32, 1), (48, 2)]

def head (depth : Nat) : Variable :=
  make chain depth "head" 2 4 (.located (.expression (.ofOperations [.const 0x2000])))

example : ((head 4).level 4).map (·.name) = ["value", "next"] ∧ (head 4).level 5 = [] ∧
    ((head 4).part? ["*", "next", "*", "value"]).isSome := by decide

/-- The head itself is the node of the walk without steps. A path of names begins at a part of it, so
none leads there. -/
theorem head_unnamed : chain.Walk (head 4).type [] ∧ chain.Unambiguous (head 4).type [] ∧
    (head 4).Reaches chain (head 4) [] ∧ (head 4).part? (([] : List Step).map (·.name)) = none :=
  ⟨.nil, trivial, ⟨rfl, nofun⟩, rfl⟩

end Variable

end SourceScope
