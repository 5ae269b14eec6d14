import SourceScope.Proofs.Code.Range
import SourceScope.Proofs.Model.Shadowing
import SourceScope.Proofs.Variable.Failure

set_option autoImplicit false

namespace SourceScope

namespace Location

def Apart (items : List Entry) : Prop :=
  items.Pairwise fun a b => ∀ pc, a.contains pc = true → b.contains pc = false

theorem expressionAt_list {items : List Entry} (apart : Apart items) {item : Entry} {pc : UInt32}
    (listed : item ∈ items) (inside : item.contains pc = true) :
    (Location.list items).expressionAt pc = .ok item.expression := by
  suffices items.find? (·.contains pc) = some item by rw [expressionAt, this]
  induction items with
  | nil => cases listed
  | cons first rest ih =>
    obtain ⟨others, apart⟩ := List.pairwise_cons.1 apart
    cases before : first.contains pc with
    | true =>
      obtain rfl | later := List.mem_cons.1 listed
      · exact List.find?_cons_of_pos before
      · rw [others item later pc before] at inside
        cases inside
    | false =>
      have later : item ∈ rest := by
        refine (List.mem_cons.1 listed).resolve_left ?_
        rintro rfl
        rw [before] at inside
        cases inside
      rw [List.find?_cons_of_neg (by simp [before])]
      exact ih apart later

theorem evaluate_list {items : List Entry} (apart : Apart items) {item : Entry} {env : Environment}
    (listed : item ∈ items) (inside : item.contains env.pc = true) :
    (Location.list items).evaluate env = (Location.expression item.expression).evaluate env := by
  rw [Location.evaluate, expressionAt_list apart listed inside]
  rfl

theorem Entry.contains_range {item : Entry} {range : CodeRange}
    (made : CodeRange.ofHalfOpen? item.start item.stop = some range) (pc : UInt32) :
    range.contains pc = item.contains pc := by
  obtain ⟨-, first, upTo⟩ := CodeRange.of_ofHalfOpen? made
  simp only [CodeRange.contains, Entry.contains, first, upTo]

theorem Entry.exists_range {item : Entry} {pc : UInt32} (inside : item.contains pc = true) :
    ∃ range, CodeRange.ofHalfOpen? item.start item.stop = some range := by
  simp only [Entry.contains, Bool.and_eq_true, decide_eq_true_eq] at inside
  rw [← Option.isSome_iff_exists, ← Option.ne_none_iff_isSome, Ne,
    CodeRange.ofHalfOpen?_eq_none_iff]
  exact UInt32.not_le.2 (UInt32.lt_of_le_of_lt inside.1 inside.2)

end Location

namespace VariableSet

structure ListLocal (s : Source) (entry : SourceScope.Entry) (f : Facts)
    (items : List Location.Entry) : Prop where
  listed : entry ∈ s.index.entries
  tag : entry.tag = Tag.variable_ ∨ entry.tag = Tag.formalParameter
  defined : entry.flag Attr.declaration = false
  facts : facts? s entry = some f
  isLocal : f.isGlobal = false
  place : placeOf s f.unit entry = .located (.list items)
  apart : Location.Apart items

def DeclaredAt (s : Source) (entry : SourceScope.Entry) (i : Nat) : Prop :=
  ∃ l, (declarations s)[i]? = some (entry, l)

def Facts.function? (s : Source) (f : Facts) : Option FunctionId := f.scope.bind (functionOf? s)

variable {s : Source} {entry : SourceScope.Entry} {f : Facts} {items : List Location.Entry}

theorem ListLocal.localsOf_eq (declared : ListLocal s entry f items) :
    localsOf s entry = listLocals s f items := by
  have visited : ¬ ((entry.tag ≠ Tag.variable_ ∧ entry.tag ≠ Tag.formalParameter) ∨
      entry.flag Attr.declaration = true) := by
    rw [declared.defined]
    rcases declared.tag with tag | tag <;> simp [tag]
  rw [localsOf, if_neg visited, declared.facts]
  simp [declared.isLocal, declared.place]

theorem mem_listLocals {l : LocalVariable} : l ∈ listLocals s f items ↔
    ∃ item ∈ items, ∃ range, CodeRange.ofHalfOpen? item.start item.stop = some range ∧
      ⟨variableOf s f (.located (.expression item.expression)), range, f.function? s⟩ = l := by
  simp only [listLocals, List.mem_filterMap, Option.map_eq_some_iff, Facts.function?]

theorem ListLocal.mem_listLocals (declared : ListLocal s entry f items) {i : Nat}
    {l : LocalVariable} (own : DeclaredAt s entry i)
    (found : (resolve s).locals[i]? = some l) : l ∈ listLocals s f items := by
  obtain ⟨m, numbered⟩ := own
  rw [locals_resolve, List.getElem?_map, numbered, Option.map_some, Option.some.injEq] at found
  rw [← declared.localsOf_eq, ← found]
  have among := List.mem_of_getElem? numbered
  simp only [declarations, List.mem_flatMap, List.mem_map, Prod.mk.injEq] at among
  obtain ⟨e, -, m, inside, rfl, rfl⟩ := among
  exact inside

theorem ListLocal.exists_declaredAt (declared : ListLocal s entry f items) {l : LocalVariable}
    (among : l ∈ listLocals s f items) :
    ∃ i, DeclaredAt s entry i ∧ (resolve s).locals[i]? = some l := by
  rw [← declared.localsOf_eq] at among
  have pair : (entry, l) ∈ declarations s :=
    List.mem_flatMap.2 ⟨entry, declared.listed, List.mem_map_of_mem among⟩
  obtain ⟨i, numbered⟩ := List.mem_iff_getElem?.1 pair
  exact ⟨i, ⟨l, numbered⟩, by rw [locals_resolve, List.getElem?_map, numbered, Option.map_some]⟩

theorem update_variableOf (s : Source) (f : Facts) {here there : Location} {env : Environment}
    (same : here.evaluate env = there.evaluate env) :
    (variableOf s f (.located here)).update env =
      { (variableOf s f (.located there)).update env with place := .located here } := by
  unfold variableOf
  split <;>
    simp only [Variable.make, Variable.unevaluated, Variable.update, Variable.updateIn,
      Variable.locate, same]

end VariableSet

namespace SourceModel

open VariableSet (DeclaredAt ListLocal variableOf)

variable {settings : Settings} {files : FileSystem} {disassemble : Disassembler} {binary : Binary}
  {initial : SourceModel} {index : EntryIndex} {state : Coprocessor} {entry : SourceScope.Entry}
  {f : VariableSet.Facts} {items : List Location.Entry}

def environmentIn (model : SourceModel) (state : Coprocessor) (function : Option SourceFunction) :
    Environment :=
  { model.environment state with
    frameBase := function.bind (·.frameBaseAt? (model.environment state).pc) }

def declaringFunction? (model : SourceModel) (s : VariableSet.Source) (f : VariableSet.Facts) :
    Option SourceFunction :=
  (f.function? s).bind model.functions.get?

section Scoped

variable {model : SourceModel} {s : VariableSet.Source} {pc : UInt32} {i : Nat}

theorem item_of_leads (declared : ListLocal s entry f items)
    (made : model.variableSet = VariableSet.resolve s) {l : LocalVariable}
    (leads : model.Leads pc i l) (own : DeclaredAt s entry i) :
    ∃ item ∈ items, item.contains pc = true ∧
      l.function = f.function? s ∧
      l.variable_ = variableOf s f (.located (.expression item.expression)) := by
  have found := leads.visible.listed
  rw [made] at found
  obtain ⟨item, listed, range, within, rfl⟩ :=
    VariableSet.mem_listLocals.1 (declared.mem_listLocals own found)
  have inside : range.contains pc = true := CodeRange.contains_iff.2 leads.visible.inRange
  rw [Location.Entry.contains_range within] at inside
  exact ⟨item, listed, inside, rfl, rfl⟩

theorem exists_leads_of_item (declared : ListLocal s entry f items)
    (made : model.variableSet = VariableSet.resolve s)
    (inFunction : (model.declaringFunction? s f).all (·.contains pc) = true)
    {item : Location.Entry} (listed : item ∈ items) (inside : item.contains pc = true) :
    ∃ i l, model.Leads pc i l ∧ l.variable_.name = f.name := by
  obtain ⟨range, within⟩ := Location.Entry.exists_range inside
  obtain ⟨i, -, found⟩ := declared.exists_declaredAt
    (VariableSet.mem_listLocals.2 ⟨item, listed, range, within, rfl⟩)
  rw [← made] at found
  rw [← Location.Entry.contains_range within] at inside
  obtain ⟨j, m, leads, name⟩ :=
    exists_leads ⟨found, CodeRange.contains_iff.1 inside, (Option.all_eq_true _ _).1 inFunction⟩
  exact ⟨j, m, leads, name.trans (VariableSet.variableOf_name s f _)⟩

theorem updateLocal_of_item (declared : ListLocal s entry f items) {item : Location.Entry}
    (listed : item ∈ items) (inside : item.contains (model.environment state).pc = true)
    {l : LocalVariable} (function : l.function = f.function? s)
    (made : l.variable_ = variableOf s f (.located (.expression item.expression))) :
    (model.updateLocal (model.environment state) l).variable_ =
      { (variableOf s f (.located (.list items))).update
          (model.environmentIn state (model.declaringFunction? s f)) with
        place := .located (.expression item.expression) } := by
  have within : item.contains
      (model.environmentIn state (model.declaringFunction? s f)).pc = true := inside
  have updated : (model.updateLocal (model.environment state) l).variable_ =
      l.variable_.update (model.environmentIn state (model.functionOf? l)) := rfl
  rw [updated, made, functionOf?, function]
  exact VariableSet.update_variableOf s f (Location.evaluate_list declared.apart listed within).symm

end Scoped

/-- A local with a location list whose items are apart, and an address of its function at which no
other local of its name is in scope. After an update there the local is in scope exactly if some
item contains the address, and it is then what an evaluation of the whole list makes of it. -/
theorem updateLocals_listLocal (built : build settings files disassemble binary = .ok initial)
    (loaded : EntryIndex.load binary.debugSections = .ok index) (calls : List Call)
    (declared : ListLocal (variableSource settings binary index) entry f items)
    (inFunction : (initial.declaringFunction? (variableSource settings binary index) f).all
      (·.contains (initial.environment state).pc) = true)
    (alone : ∀ i ∈ initial.scopeAt (initial.environment state).pc,
      ∀ l, initial.variableSet.locals[i]? = some l → l.variable_.name = f.name →
        DeclaredAt (variableSource settings binary index) entry i) :
    ((∃ i ∈ ((initial.run calls).updateLocals state).activeLocals,
        DeclaredAt (variableSource settings binary index) entry i) ↔
      ∃ item ∈ items, item.contains (initial.environment state).pc = true) ∧
    ∀ i ∈ ((initial.run calls).updateLocals state).activeLocals,
      DeclaredAt (variableSource settings binary index) entry i →
      ∃ l env, ((initial.run calls).updateLocals state).variableSet.locals[i]? = some l ∧
        env = initial.environmentIn state
          (initial.declaringFunction? (variableSource settings binary index) f) ∧
        l.variable_.resolution = Variable.resolutionOf env f.size
          (Variable.ofEvaluation ((Location.list items).evaluate env)) ∧
        ∃ item ∈ items, item.contains env.pc = true ∧
          l.variable_ = { (variableOf (variableSource settings binary index) f
              (.located (.list items))).update env with
            place := .located (.expression item.expression) } := by
  have made := build_variableSet built loaded
  obtain ⟨fresh, inactive⟩ := build_fresh built
  have follows := ((Follows.start fresh inactive).foldl calls).updateLocals state
  have active : ((initial.run calls).updateLocals state).activeLocals =
    initial.scopeAt (initial.environment state).pc := follows.active
  rw [active]
  refine ⟨⟨?_, ?_⟩, ?_⟩
  · rintro ⟨i, member, own⟩
    obtain ⟨l, leads⟩ := mem_scopeAt.1 member
    obtain ⟨item, listed, inside, -⟩ := item_of_leads declared made leads own
    exact ⟨item, listed, inside⟩
  · rintro ⟨item, listed, inside⟩
    obtain ⟨i, l, leads, name⟩ := exists_leads_of_item declared made inFunction listed inside
    have member := mem_scopeAt.2 ⟨l, leads⟩
    exact ⟨i, member, alone i member l leads.visible.listed name⟩
  · intro i member own
    obtain ⟨l, leads⟩ := mem_scopeAt.1 member
    obtain ⟨item, listed, inside, function, variable_⟩ := item_of_leads declared made leads own
    have evaluated := follows.evaluated state rfl i (active ▸ member)
    rw [leads.visible.listed, Option.map_some] at evaluated
    have updated := updateLocal_of_item declared listed inside function variable_
    refine ⟨_, _, evaluated, rfl, ?_, item, listed, inside, updated⟩
    rw [updated]
    exact (Variable.resolution_update (VariableSet.variableOf_place _ f _) _).trans
      (by rw [VariableSet.variableOf_size])

open Sample in
/-- A function with a local at an address in its first half, in a register at its last byte, and
nowhere in between. -/
def twoPlaces : Binary :=
  code 0x100 (nops 2) [function "f" 0x100 4] <|
    (".debug_loc", locationList [(0x100, 0x102, [0x70, 4]), (0x103, 0x104, [0x51])]) ::
    debug (localKinds offsetForm)
      (unitWithInt <| functionAt 0x100 4 (variable_ 3 "x" (word 0) ++ [0])) []

def twoItems : List Location.Entry :=
  [⟨0x100, 0x102, ⟨[⟨0, .registerOffset 0 4⟩], 2⟩⟩, ⟨0x103, 0x104, ⟨[⟨0, .register 1⟩], 1⟩⟩]

theorem twoItems_apart : Location.Apart twoItems := by
  simp only [Location.Apart, twoItems, List.pairwise_pair, Location.Entry.contains,
    Bool.and_eq_true, Bool.and_eq_false_iff, decide_eq_true_eq, decide_eq_false_iff_not]
  rintro pc ⟨-, before⟩
  left
  rw [UInt32.lt_iff_toNat_lt] at before
  rw [UInt32.le_iff_toNat_le]
  have first : UInt32.toNat 0x102 = 0x102 := rfl
  have second : UInt32.toNat 0x103 = 0x103 := rfl
  omega

set_option maxRecDepth 20000 in
theorem twoPlaces_declared :
    (build .default noFiles Opcode.sweep twoPlaces).toOption.map (fun initial =>
      (EntryIndex.load twoPlaces.debugSections).toOption.map (fun index =>
        (initial.scopeAt 0x102, initial.scopeAt 0x103,
          (index.entry? 29).map (fun entry => (entry.tag, entry.flag Attr.declaration,
            ((VariableSet.declarations (variableSource .default twoPlaces index))[1]?).map (·.1) ==
              some entry,
            (VariableSet.facts? (variableSource .default twoPlaces index) entry).map (fun f =>
              (f.isGlobal, f.size,
                VariableSet.placeOf (variableSource .default twoPlaces index) f.unit entry,
                [0x102, 0x103].all fun pc =>
                  (initial.declaringFunction? (variableSource .default twoPlaces index) f).all
                    (·.contains pc)))))))) =
      some (some ([], [1], some (Tag.variable_, false, true,
        some (false, 4, .located (.list twoItems), true)))) := by
  cbv

theorem updateLocals_listLocal_twoPlaces :
    ∃ initial index entry f, build .default noFiles Opcode.sweep twoPlaces = .ok initial ∧
      EntryIndex.load twoPlaces.debugSections = .ok index ∧
      ListLocal (variableSource .default twoPlaces index) entry f twoItems ∧
      (¬ ∃ i ∈ ((initial.run [.updateLocals (stoppedAt 0x103)]).updateLocals
          (stoppedAt 0x102)).activeLocals,
        DeclaredAt (variableSource .default twoPlaces index) entry i) ∧
      ∃ i ∈ ((initial.run [.resetCounters]).updateLocals (stoppedAt 0x103)).activeLocals,
        DeclaredAt (variableSource .default twoPlaces index) entry i ∧
        ∃ l, ((initial.run [.resetCounters]).updateLocals
            (stoppedAt 0x103)).variableSet.locals[i]? = some l ∧
          l.variable_.resolution = .resolved none (some 0x103) := by
  obtain ⟨initial, built, facts⟩ := exists_ok twoPlaces_declared
  obtain ⟨index, loaded, facts⟩ := exists_ok facts
  simp only [Prod.mk.injEq] at facts
  obtain ⟨between, behind, facts⟩ := facts
  obtain ⟨entry, found, facts⟩ := Option.map_eq_some_iff.1 facts
  simp only [Prod.mk.injEq, beq_iff_eq] at facts
  obtain ⟨tag, defined, second, facts⟩ := facts
  obtain ⟨f, known, facts⟩ := Option.map_eq_some_iff.1 facts
  simp only [Prod.mk.injEq] at facts
  obtain ⟨isLocal, size, place, inFunction⟩ := facts
  obtain ⟨⟨other, l⟩, numbered, same⟩ := Option.map_eq_some_iff.1 second
  obtain rfl : entry = other := same.symm
  simp only [List.all_cons, List.all_nil, Bool.and_true, Bool.and_eq_true] at inFunction
  have fromIndex : (some 29).bind index.entry? = some entry := found
  have declared : ListLocal (variableSource .default twoPlaces index) entry f twoItems :=
    ⟨(index.mem_entries_iff entry).2 (EntryIndex.entry?_offset fromIndex), .inl tag, defined, known,
      isLocal, place, twoItems_apart⟩
  have own : DeclaredAt (variableSource .default twoPlaces index) entry 1 := ⟨l, numbered⟩
  have pc (address : UInt32) : (initial.environment (stoppedAt address)).pc = address := rfl
  obtain ⟨gone, -⟩ := updateLocals_listLocal built loaded [.updateLocals (stoppedAt 0x103)] declared
    (pc 0x102 ▸ inFunction.1) (by simp [pc, between])
  obtain ⟨there, resolved⟩ := updateLocals_listLocal built loaded [.resetCounters] declared
    (pc 0x103 ▸ inFunction.2) (by simp [pc, behind, own])
  refine ⟨initial, index, entry, f, built, loaded, declared, ?_, ?_⟩
  · rw [gone, pc]
    decide
  · obtain ⟨i, active, declaredAt⟩ := there.2 ⟨_, List.mem_cons_of_mem _ List.mem_cons_self, rfl⟩
    obtain ⟨m, env, updated, rfl, resolution, -⟩ := resolved i active declaredAt
    exact ⟨i, active, declaredAt, m, updated, by rw [resolution, size]; rfl⟩

end SourceModel

end SourceScope
