import SourceScope.Proofs.Entry.Outward
import SourceScope.Proofs.Layout.Members
import SourceScope.Proofs.Variable.Declared

set_option autoImplicit false

namespace SourceScope

namespace EntryIndex

theorem History.of_units {pushes : List Push} {entry : Entry}
    (member : entry ∈ (History.of pushes).recent ++ (History.of pushes).past) :
    entry.unit ∈ (History.of pushes).units := by
  suffices ∀ history : History, (∀ e ∈ history.recent ++ history.past, e.unit ∈ history.units) →
      ∀ e ∈ (pushes.foldl push history).recent ++ (pushes.foldl push history).past,
        e.unit ∈ (pushes.foldl push history).units from
    this .empty (by simp [empty]) entry member
  clear member entry
  induction pushes with
  | nil => exact fun _ owned => owned
  | cons next rest ih =>
    intro history owned
    refine ih _ ?_
    cases next with
    | unit unit => exact fun e member => List.mem_cons_of_mem _ (owned e member)
    | entry unit entry =>
      simp only [History.push]
      split
      next known => exact List.forall_mem_cons.2 ⟨known, owned⟩
      next => exact owned

theorem unit?_of_mem_entries {pushes : List Push} {entry : Entry}
    (listed : entry ∈ (build pushes).entries) :
    ∃ unit, (build pushes).unit? entry.unit = some unit := by
  have follows := follows_build pushes
  have pushed := List.mem_of_find?_eq_some (entry?_of_mem_entries listed)
  rw [follows.pushed] at pushed
  exact Option.isSome_iff_exists.1 ((follows.units _).2 (History.of_units pushed))

end EntryIndex

namespace VariableSet

variable {s : Source} {entry : Entry} {f : Facts}

def Defines (entry : Entry) : Prop :=
  (entry.tag = Tag.variable_ ∨ entry.tag = Tag.formalParameter) ∧
    entry.flag Attr.declaration = false

instance (entry : Entry) : Decidable (Defines entry) := inferInstanceAs (Decidable (_ ∧ _))

theorem not_defines_iff : ¬Defines entry ↔
    (entry.tag ≠ Tag.variable_ ∧ entry.tag ≠ Tag.formalParameter) ∨
      entry.flag Attr.declaration = true := by
  rw [Defines, not_and_or, not_or, Bool.not_eq_false]

def saidOf? {A : Type} (s : Source) (entry : Entry) (read : Entry → Option A) : Option A :=
  (read entry).or ((s.index.originOf? entry).bind read)

def contribution (s : Source) (entry : Entry) : VariableSet := addEntry s .empty entry

theorem addEntry_eq (s : Source) (set : VariableSet) (entry : Entry) :
    addEntry s set entry = ⟨set.globals ++ (contribution s entry).globals,
      set.locals ++ (contribution s entry).locals⟩ := by
  unfold contribution addEntry
  split
  · simp [empty]
  split
  · simp [empty]
  · simp only
    split
    · simp [addGlobal, empty]
    split <;> simp [addLocals, empty]

theorem foldl_addEntry (s : Source) (set : VariableSet) (entries : List Entry) :
    entries.foldl (addEntry s) set =
      ⟨set.globals ++ entries.flatMap fun e => (contribution s e).globals,
        set.locals ++ entries.flatMap fun e => (contribution s e).locals⟩ := by
  induction entries generalizing set with
  | nil => simp
  | cons entry rest ih =>
    rw [List.foldl_cons, ih, addEntry_eq]
    simp

theorem contribution_of_not_defines (announced : ¬Defines entry) :
    contribution s entry = .empty := by
  rw [contribution, addEntry, if_pos (not_defines_iff.1 announced)]

theorem contribution_of_facts (defines : Defines entry) (known : facts? s entry = some f) :
    (f.isGlobal = true ∧ contribution s entry = ⟨[variableOf s f (placeOf s f.unit entry)], []⟩) ∨
      f.isGlobal = false ∧ (contribution s entry).globals = [] := by
  have announced := mt not_defines_iff.2 (not_not.2 defines)
  simp only [contribution, addEntry, if_neg announced, known]
  cases global : f.isGlobal with
  | true => exact .inl ⟨rfl, rfl⟩
  | false =>
    refine .inr ⟨rfl, ?_⟩
    simp only [Bool.false_eq_true, if_false]
    split <;> rfl

theorem contribution_of_unknown (missing : facts? s entry = none) :
    contribution s entry = .empty := by
  simp [contribution, addEntry, missing]

theorem exists_facts {unit : CompileUnit} {name : String} {type : TypeId}
    (known : s.index.unit? entry.unit = some unit)
    (named : saidOf? s entry Entry.name? = some name)
    (typed : (saidOf? s entry Entry.type?).bind s.types.idAt? = some type) :
    ∃ f info, facts? s entry = some f ∧ s.types.get? type = some info ∧ f.name = name ∧
      f.type = type ∧ f.size = info.size := by
  obtain ⟨info, listed⟩ : ∃ info, s.types.get? type = some info := by
    obtain ⟨offset, -, found⟩ := Option.bind_eq_some_iff.1 typed
    exact Option.isSome_iff_exists.1 (TypeTable.idAt?_resolved found).2
  simp only [saidOf?] at named typed
  simp only [facts?, known, Option.bind_eq_bind, Option.bind_some]
  cases ownName : entry.name? <;> cases ownType : entry.type? <;>
    simp only [ownName, ownType, Option.none_or, Option.some_or] at named typed <;>
    simp only [named, typed, listed, Option.bind_some, Option.pure_def]
  all_goals exact ⟨_, info, rfl, rfl, rfl, rfl, rfl⟩

theorem isGlobal_of_facts (found : facts? s entry = some f) : ∃ exported : Bool,
    f.isGlobal = (f.scope.isNone || (!entry.has Attr.constValue && exported)) := by
  simp only [facts?, Option.bind_eq_bind, Option.bind_eq_some_iff, Option.pure_def,
    Option.some.injEq] at found
  obtain ⟨unit, -, name, -, type, -, info, -, rfl⟩ := found
  exact ⟨_, rfl⟩

theorem contribution_of_unscoped (defines : Defines entry) (found : facts? s entry = some f)
    (outside : f.scope = none) :
    contribution s entry = ⟨[variableOf s f (placeOf s f.unit entry)], []⟩ := by
  obtain ⟨exported, isGlobal⟩ := isGlobal_of_facts found
  obtain ⟨-, global⟩ | ⟨no, -⟩ := contribution_of_facts defines found
  · exact global
  · rw [isGlobal, outside] at no
    cases no

theorem globals_of_constant (defines : Defines entry) (found : facts? s entry = some f)
    (inside : f.scope.isNone = false) (constant : entry.has Attr.constValue = true) :
    (contribution s entry).globals = [] := by
  obtain ⟨exported, isGlobal⟩ := isGlobal_of_facts found
  obtain ⟨global, -⟩ | ⟨-, no⟩ := contribution_of_facts defines found
  · rw [isGlobal, inside, constant] at global
    cases global
  · exact no

theorem exists_global? {set : VariableSet} {v : Variable} (listed : v ∈ set.globals) :
    ∃ first, set.global? v.name = some first ∧ first.name = v.name := by
  have present : (set.global? v.name).isSome = true :=
    List.find?_isSome.2 ⟨v, listed, beq_self_eq_true v.name⟩
  obtain ⟨first, found⟩ := Option.isSome_iff_exists.1 present
  have same := List.find?_some found
  exact ⟨first, found, by simpa using same⟩

theorem find?_outward {scope : Entry} {stops : Entry → Bool} {passed : List Entry}
    {found : Option Entry} (known : s.index.entry? scope.offset = some scope)
    (searches : s.index.Searches stops (some scope.offset) passed found) :
    (outward s.index scope).find? stops = found := by
  have start : outward s.index scope =
      s.index.ancestorsFrom (s.index.size + 1) (some scope.offset) := by
    simp [outward, EntryIndex.ancestors, EntryIndex.ancestorsFrom, known]
  rw [start]
  exact searches.find?_ancestorsFrom (Nat.le_succ_of_le searches.length_le)

def hasCode (s : Source) (unit : CompileUnit) (e : Entry) : Bool :=
  isScope e && !(codeOf s unit e).isEmpty

def becameFunction (s : Source) (e : Entry) : Bool := (s.functions.forEntry? e.offset).isSome

theorem functionOf?_eq (s : Source) (scope : Entry) : functionOf? s scope =
    ((outward s.index scope).find? (becameFunction s)).bind fun e =>
      s.functions.forEntry? e.offset := by
  unfold functionOf?
  induction outward s.index scope with
  | nil => rfl
  | cons e rest ih => cases found : s.functions.forEntry? e.offset <;> simp [becameFunction, found, ih]

theorem scope_known {scope : Entry} (found : facts? s entry = some f) (inside : f.scope = some scope) :
    s.index.entry? scope.offset = some scope := by
  rw [(facts?_eq_some found).2] at inside
  exact EntryIndex.entry?_of_mem_ancestorsFrom (List.mem_of_find?_eq_some inside)

def IsListed (s : Source) (entry : Entry) (f : Facts) : Prop :=
  ∃ items, placeOf s f.unit entry = .located (.list items)

theorem mem_contribution_locals {l : LocalVariable} (found : facts? s entry = some f)
    (member : l ∈ (contribution s entry).locals) : Defines entry ∧ f.isGlobal = false ∧
      ∀ scope, f.scope = some scope → l.function = functionOf? s scope ∧
        (IsListed s entry f ∨ l.range ∈ scopeRanges s f.unit scope) := by
  rw [contribution, locals_addEntry, empty, List.nil_append] at member
  unfold localsOf at member
  split at member
  case isTrue => cases member
  case isFalse defines =>
    refine ⟨by rwa [← not_defines_iff, not_not] at defines, ?_⟩
    simp only [found] at member
    split at member
    case isTrue => cases member
    case isFalse isLocal =>
      refine ⟨Bool.eq_false_iff.2 isLocal, fun scope inside => ?_⟩
      split at member
      case h_1 _ _ items listed =>
        simp only [listLocals, List.mem_filterMap, Option.map_eq_some_iff] at member
        obtain ⟨item, -, range, -, rfl⟩ := member
        exact ⟨by rw [inside, Option.bind_some], .inl ⟨items, listed⟩⟩
      case h_2 _ _ other here _ =>
        obtain rfl := Option.some.inj (here.symm.trans inside)
        simp only [scopeLocals, List.mem_map] at member
        obtain ⟨range, among, rfl⟩ := member
        exact ⟨rfl, .inr among⟩
      case h_3 => cases member

/-- The searches outward that an entry takes come to an end: the one for its scope, and if it is
local those for code and for a function from there. -/
structure Returns (s : Source) (entry : Entry) (f : Facts) : Prop where
  scope : s.index.Ends isScope entry.parent
  code : f.isGlobal = false → ¬IsListed s entry f →
    ∀ scope, f.scope = some scope → s.index.Ends (hasCode s f.unit) (some scope.offset)
  function : f.isGlobal = false → ∀ scope, f.scope = some scope →
    (IsListed s entry f ∨ scopeRanges s f.unit scope ≠ []) →
      s.index.Ends (becameFunction s) (some scope.offset)

theorem Returns.placed (returns : Returns s entry f) (found : facts? s entry = some f)
    {l : LocalVariable} (member : l ∈ (contribution s entry).locals) {scope : Entry}
    (inside : f.scope = some scope) :
    (∃ passed found, s.index.Searches (becameFunction s) (some scope.offset) passed found ∧
      l.function = found.bind fun around => s.functions.forEntry? around.offset) ∧
    (IsListed s entry f ∨
      ∃ passed coded, s.index.Searches (hasCode s f.unit) (some scope.offset) passed (some coded) ∧
        l.range ∈ codeOf s f.unit coded) := by
  obtain ⟨-, isLocal, placed⟩ := mem_contribution_locals found member
  obtain ⟨function, range⟩ := placed scope inside
  have known := scope_known found inside
  constructor
  · have reached : IsListed s entry f ∨ scopeRanges s f.unit scope ≠ [] :=
      range.imp_right List.ne_nil_of_mem
    obtain ⟨passed, around, searches⟩ := returns.function isLocal scope inside reached
    refine ⟨passed, around, searches, ?_⟩
    rw [function, functionOf?_eq, find?_outward known searches]
  · by_cases isListed : IsListed s entry f
    · exact .inl isListed
    obtain ⟨passed, coded, searches⟩ := returns.code isLocal isListed scope inside
    obtain ⟨other, first, own⟩ := mem_scopeRanges.1 (range.resolve_left isListed)
    have same : codedScope? s f.unit scope = coded := find?_outward known searches
    rw [first] at same
    exact .inr ⟨passed, other, same ▸ searches, own⟩

def AllReturn (s : Source) : Prop :=
  ∀ e ∈ s.index.entries, Defines e → ∀ f, facts? s e = some f → Returns s e f

theorem allReturn_build {pushes : List EntryIndex.Push} (built : s.index = .build pushes)
    (distinct : (EntryIndex.History.of pushes).Distinct) : AllReturn s := by
  intro e listed _ f found
  have nested := EntryIndex.nested_build distinct
  rw [← built] at nested
  have around {scope : Entry} (inside : f.scope = some scope) : scope ∈ s.index.entries :=
    (EntryIndex.mem_entries_iff s.index scope).2 (scope_known found inside)
  exact ⟨(nested.ends listed _).1, fun _ _ _ inside => (nested.ends (around inside) _).2,
    fun _ _ inside _ => (nested.ends (around inside) _).2⟩

structure Classified (s : Source) : Prop where
  globals : (resolve s).globals = s.index.entries.flatMap fun e => (contribution s e).globals
  locals : (resolve s).locals = s.index.entries.flatMap fun e => (contribution s e).locals
  announced : ∀ e : Entry, ¬Defines e → contribution s e = .empty
  oneKind : ∀ e : Entry, Defines e →
    (∃ v, contribution s e = ⟨[v], []⟩) ∨ (contribution s e).globals = []
  unscoped : ∀ e ∈ s.index.entries, Defines e →
    (∀ around ∈ s.index.ancestors e.offset, isScope around = false) →
      ∀ (name : String) (type : TypeId), saidOf? s e Entry.name? = some name →
        (saidOf? s e Entry.type?).bind s.types.idAt? = some type →
          (∃ v info, contribution s e = ⟨[v], []⟩ ∧ s.types.get? type = some info ∧
            v.name = name ∧ v.type = type ∧ v.size = info.size) ∧
          ∃ v, (resolve s).global? name = some v ∧ v.name = name
  constant : ∀ e : Entry, Defines e →
    (∃ around ∈ s.index.ancestors e.offset, isScope around = true) →
      e.has Attr.constValue = true → (contribution s e).globals = []
  -- What the searches outward come to, which settles the scope of an entry and where its locals are.
  around : ∀ e ∈ s.index.entries, Defines e → ∀ f, facts? s e = some f →
    ∃ passed, s.index.Searches isScope e.parent passed f.scope
  placed : ∀ e ∈ s.index.entries, ∀ f, facts? s e = some f → ∀ l ∈ (contribution s e).locals,
    ∀ scope, f.scope = some scope →
      (∃ passed found, s.index.Searches (becameFunction s) (some scope.offset) passed found ∧
        l.function = found.bind fun around => s.functions.forEntry? around.offset) ∧
      (IsListed s e f ∨
        ∃ passed coded, s.index.Searches (hasCode s f.unit) (some scope.offset) passed (some coded) ∧
          l.range ∈ codeOf s f.unit coded)

/-- Where no offset is pushed twice all searches outward come to an end. Wherever they do, each entry
of a variable adds one global or only locals. Outside of scopes it is a global that can be found by
its name, and a constant in a scope is never global. -/
theorem resolve_classified {pushes : List EntryIndex.Push} (built : s.index = .build pushes) :
    ((EntryIndex.History.of pushes).Distinct → AllReturn s) ∧ (AllReturn s → Classified s) := by
  refine ⟨allReturn_build built, fun returns => ?_⟩
  have resolved : resolve s = _ := foldl_addEntry s .empty s.index.entries
  have globals : (resolve s).globals =
      s.index.entries.flatMap fun e => (contribution s e).globals := by
    simpa [empty] using congrArg (·.globals) resolved
  constructor
  case globals => exact globals
  case locals => simpa [empty] using congrArg (·.locals) resolved
  case announced => exact fun e => contribution_of_not_defines
  case oneKind =>
    intro e defines
    cases known : facts? s e with
    | none => exact .inr (by rw [contribution_of_unknown known, empty])
    | some f =>
      obtain ⟨-, global⟩ | ⟨-, no⟩ := contribution_of_facts defines known
      · exact .inl ⟨_, global⟩
      · exact .inr no
  case unscoped =>
    intro e listed defines outside name type named typed
    obtain ⟨unit, known⟩ := EntryIndex.unit?_of_mem_entries (built ▸ listed)
    obtain ⟨f, info, found, sized, rfl, rfl, size⟩ := exists_facts (built ▸ known) named typed
    have scope : f.scope = none := by
      rw [(facts?_eq_some found).2, List.find?_eq_none]
      simpa using outside
    have global := contribution_of_unscoped defines found scope
    refine ⟨⟨_, info, global, sized, by simp, by simp, by simp [size]⟩, ?_⟩
    have among : variableOf s f (placeOf s f.unit e) ∈ (resolve s).globals := by
      rw [globals]
      exact List.mem_flatMap.2 ⟨e, listed, by simp [global]⟩
    simpa using exists_global? among
  case constant =>
    intro e defines inside constant
    cases known : facts? s e with
    | none => rw [contribution_of_unknown known, empty]
    | some f =>
      have scope : f.scope.isNone = false := by
        rw [(facts?_eq_some known).2, Option.isNone_eq_false_iff, List.find?_isSome]
        exact inside
      exact globals_of_constant defines known scope constant
  case around =>
    intro e listed defines f found
    obtain ⟨passed, scope, searches⟩ := (returns e listed defines f found).scope
    rw [(facts?_eq_some found).2,
      searches.find?_ancestors (EntryIndex.entry?_of_mem_entries listed)]
    exact ⟨passed, searches⟩
  case placed =>
    intro e listed f found l member scope inside
    have defines := (mem_contribution_locals found member).1
    exact (returns e listed defines f found).placed found member inside

open TypeTable (pushesOf intEntry referring)

def outerCounter : Entry := referring 32 Tag.variable_ "counter" 16

def innerCounter : Entry where
  offset := 64
  tag := Tag.variable_
  unit := 0
  depth := 2
  parent := none
  attributes := [(Attr.name, .text "counter"), (Attr.type, .reference 16),
    (Attr.constValue, .unsigned 5), (Attr.external, .flag true)]

def counterPushes : List EntryIndex.Push :=
  pushesOf [intEntry, outerCounter,
    ⟨48, Tag.subprogram, 0, 1, none, [(Attr.lowPc, .address 0x100), (Attr.highPc, .unsigned 0x40)]⟩,
    innerCounter]

def twoCounters : EntryIndex := .build counterPushes

def counterSource : Source where
  index := twoCounters
  types := .resolve .default twoCounters
  functions := .empty
  ranges := ⟨.little, []⟩
  lists := ⟨.little, []⟩
  maxDepth := 2

theorem resolve_classified_twoCounters :
    (∃ v, contribution counterSource { outerCounter with unit := 11 } = ⟨[v], []⟩ ∧
      v.name = "counter" ∧ v.size = 4) ∧
    (∃ v, (resolve counterSource).global? "counter" = some v ∧ v.name = "counter") ∧
    (contribution counterSource { innerCounter with unit := 11, parent := some 48 }).globals = [] ∧
    (resolve counterSource).locals.map (·.variable_.name) = ["counter"] := by
  have distinct : (EntryIndex.History.of counterPushes).Distinct := by decide +kernel
  obtain ⟨returns, classify⟩ := resolve_classified (s := counterSource) rfl
  have classified := classify (returns distinct)
  obtain ⟨⟨v, info, global, sized, name, -, size⟩, found⟩ :=
    classified.unscoped { outerCounter with unit := 11 } (by decide +kernel) (by decide)
      (by decide +kernel) "counter" 0 (by decide +kernel) (by decide +kernel)
  refine ⟨⟨v, global, name, ?_⟩, found, ?_, by decide +kernel⟩
  · have int : (counterSource.types.get? 0).map (·.size) = some 4 := by decide +kernel
    rw [sized] at int
    exact size.trans (Option.some.inj int)
  · exact classified.constant _ (by decide) (by decide +kernel) (by decide)

end VariableSet

end SourceScope
