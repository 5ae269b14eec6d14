import Mathlib
import SourceScope.Proofs.Model.InScope
import SourceScope.Proofs.Model.Rows
import SourceScope.Proofs.Variable.Declared

set_option autoImplicit false

namespace SourceScope

namespace VariableSet

structure Declaration where
  local_ : LocalVariable
  position : Nat
  entry : Entry
  scope : Entry

structure Declaration.Of (s : Source) (d : Declaration) : Prop where
  listed : (declarations s)[d.position]? = some (d.entry, d.local_)
  innermost : (s.index.ancestors d.entry.offset).find? isScope = some d.scope

/-- Two locals of one name and one function whose ranges contain an address, one of them declared in
a scope around that of the other. -/
structure Shadows (s : Source) (address : UInt32) (inner outer : Declaration) : Prop where
  innerOf : inner.Of s
  outerOf : outer.Of s
  distinct : inner.position ≠ outer.position
  inside : outer.scope ∈ s.index.ancestors inner.scope.offset
  name : inner.local_.variable_.name = outer.local_.variable_.name
  function : inner.local_.function = outer.local_.function
  inInner : inner.local_.range.contains address = true
  inOuter : outer.local_.range.contains address = true

variable {s : Source} {address : UInt32} {inner outer d : Declaration}

theorem Declaration.Of.getElem?_locals (declared : d.Of s) :
    (resolve s).locals[d.position]? = some d.local_ := by
  rw [locals_resolve, List.getElem?_map, declared.listed, Option.map_some]

theorem Declaration.Of.scope_known (declared : d.Of s) :
    d.scope ∈ s.index.entries ∧ isScope d.scope = true :=
  ⟨EntryIndex.mem_entries_of_ancestor (List.mem_of_find?_eq_some declared.innermost),
    List.find?_some declared.innermost⟩

/-- Two locals whose ranges are those of their scopes, in a unit whose code nests. -/
structure Nested (s : Source) (inner outer : Declaration) : Prop where
  plain : hasLocationList inner.entry = false ∧ hasLocationList outer.entry = false
  together : inner.entry.unit = outer.entry.unit
  nests : ∀ unit, s.index.unit? inner.entry.unit = some unit → CodeNests s unit

theorem Shadows.range_within (shadows : Shadows s address inner outer)
    (nested : Nested s inner outer) : inner.local_.range.Within outer.local_.range := by
  obtain ⟨unit, known, first⟩ := range_of_plain (List.mem_of_getElem? shadows.innerOf.listed)
    shadows.innerOf.innermost nested.plain.1
  obtain ⟨other, same, second⟩ := range_of_plain (List.mem_of_getElem? shadows.outerOf.listed)
    shadows.outerOf.innermost nested.plain.2
  rw [← nested.together, known] at same
  obtain rfl := Option.some.inj same
  exact (nested.nests unit known).range_within shadows.innerOf.scope_known.1 shadows.inside
    shadows.outerOf.scope_known.2 first second shadows.inInner shadows.inOuter

def Declaration.at? (s : Source) (i : Nat) : Option Declaration := do
  let declared ← (declarations s)[i]?
  let scope ← (s.index.ancestors declared.1.offset).find? isScope
  some ⟨declared.2, i, declared.1, scope⟩

theorem Declaration.of_at? {i : Nat} (found : at? s i = some d) : d.Of s ∧ d.position = i := by
  simp only [at?, Option.bind_eq_bind, Option.bind_eq_some_iff, Option.some.injEq] at found
  obtain ⟨declared, listed, scope, innermost, rfl⟩ := found
  exact ⟨⟨listed, innermost⟩, rfl⟩

instance (s : Source) (inner outer : Declaration) : Decidable (Nested s inner outer) :=
  decidable_of_iff
    ((hasLocationList inner.entry = false ∧ hasLocationList outer.entry = false) ∧
      inner.entry.unit = outer.entry.unit ∧
      (s.index.unit? inner.entry.unit).all (fun unit => decide (CodeNests s unit)) = true)
    (by simp only [Option.all_eq_true, decide_eq_true_eq]
        exact ⟨fun nested => ⟨nested.1, nested.2.1, nested.2.2⟩,
          fun nested => ⟨nested.plain, nested.together, nested.nests⟩⟩)

def shadowsAt (s : Source) (address : UInt32) (test : Declaration → Declaration → Bool)
    (i j : Nat) : Bool :=
  match Declaration.at? s i, Declaration.at? s j with
  | some inner, some outer =>
    inner.position != outer.position &&
      (s.index.ancestors inner.scope.offset).contains outer.scope &&
      inner.local_.variable_.name == outer.local_.variable_.name &&
      inner.local_.function == outer.local_.function && inner.local_.range.contains address &&
      outer.local_.range.contains address && test inner outer
  | _, _ => false

theorem exists_shadows {test : Declaration → Declaration → Bool} {i j : Nat}
    (holds : shadowsAt s address test i j = true) :
    ∃ inner outer, inner.position = i ∧ outer.position = j ∧ Shadows s address inner outer ∧
      test inner outer = true := by
  unfold shadowsAt at holds
  split at holds
  next inner outer foundInner foundOuter =>
    obtain ⟨innerOf, atInner⟩ := Declaration.of_at? foundInner
    obtain ⟨outerOf, atOuter⟩ := Declaration.of_at? foundOuter
    simp only [Bool.and_eq_true, bne_iff_ne, beq_iff_eq, List.contains_iff_mem] at holds
    obtain ⟨⟨⟨⟨⟨⟨distinct, inside⟩, name⟩, function⟩, inInner⟩, inOuter⟩, test⟩ := holds
    exact ⟨inner, outer, atInner, atOuter,
      ⟨innerOf, outerOf, distinct, inside, name, function, inInner, inOuter⟩, test⟩
  · cases holds

end VariableSet

namespace SourceModel

open VariableSet (Declaration Shadows Nested)

section

variable {model : SourceModel} {pc : UInt32} {i j : Nat} {l m : LocalVariable}

theorem Visible.of_function (visible : model.Visible pc i l) (function : m.function = l.function)
    (listed : model.variableSet.locals[j]? = some m) (inRange : m.range.contains pc = true) :
    model.Visible pc j m := by
  refine ⟨listed, CodeRange.contains_iff.1 inRange, ?_⟩
  simpa only [functionOf?, function] using visible.inFunction

theorem range_le_of_mem_scopeAt (returned : i ∈ model.scopeAt pc)
    (first : model.variableSet.locals[i]? = some l) (second : model.variableSet.locals[j]? = some m)
    (name : m.variable_.name = l.variable_.name) (function : m.function = l.function)
    (inRange : m.range.contains pc = true) :
    l.range.size < m.range.size ∨ l.range.size = m.range.size ∧ i ≤ j := by
  obtain ⟨_, leads⟩ := mem_scopeAt.1 returned
  obtain rfl := Option.some.inj (leads.visible.listed.symm.trans first)
  exact leads.least j m (leads.visible.of_function function second inRange) name

end

variable {settings : Settings} {files : FileSystem} {disassemble : Disassembler} {binary : Binary}
  {model : SourceModel} {index : EntryIndex}

def variableSource (settings : Settings) (binary : Binary) (index : EntryIndex) :
    VariableSet.Source :=
  let ranges : RangeSection := ⟨binary.order, binary.debugSections.data ".debug_ranges"⟩
  let lists : LocationSection := ⟨binary.order, binary.debugSections.data ".debug_loc"⟩
  ⟨index, TypeTable.resolve settings index, FunctionSet.resolve index ranges lists, ranges, lists,
    settings.maxChildDepth.toNat⟩

theorem build_variableSet (built : build settings files disassemble binary = .ok model)
    (loaded : EntryIndex.load binary.debugSections = .ok index) :
    model.variableSet = VariableSet.resolve (variableSource settings binary index) := by
  obtain ⟨frame, rfl⟩ := build_eq_ofLoaded built loaded
  rfl

/-- The outer one of two locals is not in scope beside the inner one if its range is larger, or as
large and not before it in the list. In nested code only an outer one of the same range can be. -/
theorem build_shadows (built : build settings files disassemble binary = .ok model)
    (loaded : EntryIndex.load binary.debugSections = .ok index) {pc : UInt32}
    {inner outer : Declaration}
    (shadows : Shadows (variableSource settings binary index) pc inner outer) :
    (inner.local_.range.size < outer.local_.range.size ∨
        inner.local_.range.size = outer.local_.range.size ∧ inner.position < outer.position →
      outer.position ∉ model.scopeAt pc) ∧
    (Nested (variableSource settings binary index) inner outer →
      outer.position ∈ model.scopeAt pc →
        inner.local_.range.first = outer.local_.range.first ∧
          inner.local_.range.last = outer.local_.range.last ∧ outer.position < inner.position) := by
  have first := shadows.outerOf.getElem?_locals
  have second := shadows.innerOf.getElem?_locals
  rw [← build_variableSet built loaded] at first second
  have least (returned : outer.position ∈ model.scopeAt pc) :
      outer.local_.range.size < inner.local_.range.size ∨
        outer.local_.range.size = inner.local_.range.size ∧ outer.position ≤ inner.position :=
    range_le_of_mem_scopeAt returned first second shadows.name shadows.function
      shadows.inInner
  have distinct := shadows.distinct
  constructor
  · intro smaller returned
    have := least returned
    omega
  · intro nested returned
    have := least returned
    have within := shadows.range_within nested
    obtain smaller | ⟨large, begins, ends⟩ := within.size shadows.inInner
    · omega
    · exact ⟨begins, ends, by omega⟩

open Sample in
/-- A function with three locals and, in blocks of it, three of the same names. The first `x` has a
location list, the first block all the code of the function and the second block half of it. -/
def shadowing : Binary :=
  code 0x100 (nops 2) [function "f" 0x100 4] <|
    (".debug_loc", locationList [(0x102, 0x104, [0x91, 4])]) ::
    debug (unitKind ++ functionKind true [(Attr.frameBase, expressionForm)] ++
        variableKind 3 expressionForm ++ intKind ++ blockKind ++ variableKind 6 offsetForm ++ [0])
      (unitWithInt <| functionAt 0x100 4 <|
        expression [0x7d, 0] ++ variable_ 6 "x" (word 0) ++
        variable_ 3 "y" (expression [0x91, 8]) ++ variable_ 3 "z" (expression [0x91, 12]) ++
        blockAt 0x100 4 (variable_ 3 "x" (expression [0x91, 16]) ++
          variable_ 3 "y" (expression [0x91, 20])) ++
        blockAt 0x102 2 (variable_ 3 "z" (expression [0x91, 24])) ++ [0]) []

set_option maxRecDepth 20000 in
theorem shadowing_scopeAt :
    (build .default noFiles Opcode.sweep shadowing).toOption.map (·.scopeAt 0x102) =
      some [0, 1, 5] := by
  cbv

set_option maxRecDepth 20000 in
theorem shadowing_pairs :
    (EntryIndex.load shadowing.debugSections).toOption.map (fun index =>
      (VariableSet.shadowsAt (variableSource .default shadowing index) 0x102
          (fun inner outer => decide (inner.local_.range.size < outer.local_.range.size)) 5 2,
        VariableSet.shadowsAt (variableSource .default shadowing index) 0x102
          (fun inner outer => decide (Nested (variableSource .default shadowing index) inner outer))
          4 1,
        VariableSet.shadowsAt (variableSource .default shadowing index) 0x102
          (fun inner outer => inner.scope != outer.scope) 3 0)) =
      some (true, true, true) := by
  cbv

theorem build_shadows_shadowing :
    ∃ model index, build .default noFiles Opcode.sweep shadowing = .ok model ∧
      EntryIndex.load shadowing.debugSections = .ok index ∧
      (∃ inner outer, Shadows (variableSource .default shadowing index) 0x102 inner outer ∧
        inner.local_.range.size < outer.local_.range.size ∧
        outer.position ∉ model.scopeAt 0x102) ∧
      ∃ inner outer, Shadows (variableSource .default shadowing index) 0x102 inner outer ∧
        Nested (variableSource .default shadowing index) inner outer ∧
        outer.position ∈ model.scopeAt 0x102 ∧
        inner.local_.range.first = outer.local_.range.first ∧
        inner.local_.range.last = outer.local_.range.last ∧ outer.position < inner.position := by
  obtain ⟨model, built, scopeAt⟩ := exists_ok shadowing_scopeAt
  obtain ⟨index, loaded, pairs⟩ := exists_ok shadowing_pairs
  simp only [Prod.mk.injEq] at pairs
  obtain ⟨inner, outer, -, -, shadows, smaller⟩ := VariableSet.exists_shadows pairs.1
  obtain ⟨inner', outer', -, first, shadows', nested⟩ := VariableSet.exists_shadows pairs.2.1
  rw [decide_eq_true_eq] at smaller nested
  have returned : outer'.position ∈ model.scopeAt 0x102 := by simp [scopeAt, first]
  exact ⟨model, index, built, loaded,
    ⟨inner, outer, shadows, smaller, (build_shadows built loaded shadows).1 (.inl smaller)⟩,
    inner', outer', shadows', nested, returned,
    (build_shadows built loaded shadows').2 nested returned⟩

/-- The outer `x` is in scope instead of the inner one: its location list has less code. -/
theorem shadowing_outer :
    ∃ model index inner outer, build .default noFiles Opcode.sweep shadowing = .ok model ∧
      EntryIndex.load shadowing.debugSections = .ok index ∧
      Shadows (variableSource .default shadowing index) 0x102 inner outer ∧
      inner.scope ≠ outer.scope ∧ outer.position ∈ model.scopeAt 0x102 := by
  obtain ⟨model, built, scopeAt⟩ := exists_ok shadowing_scopeAt
  obtain ⟨index, loaded, pairs⟩ := exists_ok shadowing_pairs
  simp only [Prod.mk.injEq] at pairs
  obtain ⟨inner, outer, -, first, shadows, proper⟩ := VariableSet.exists_shadows pairs.2.2
  rw [bne_iff_ne] at proper
  exact ⟨model, index, inner, outer, built, loaded, shadows, proper, by simp [scopeAt, first]⟩

end SourceModel

end SourceScope
