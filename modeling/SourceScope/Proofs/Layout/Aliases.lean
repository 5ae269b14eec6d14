import SourceScope.Proofs.Layout.Members

set_option autoImplicit false

namespace SourceScope

def Entry.IsAlias (e : Entry) : Prop :=
  e.tag = Tag.typedef ∨ e.tag = Tag.constType ∨ e.tag = Tag.volatileType

/-- Typedefs and qualifiers from an offset on, each of which refers to the next one, and the offset
that the last one refers to. -/
inductive EntryIndex.AliasChain (index : EntryIndex) : Nat → List Entry → Nat → Prop where
  | nil (offset : Nat) : index.AliasChain offset [] offset
  | cons {e : Entry} {target last : Nat} {rest : List Entry} (listed : e ∈ index.entries)
    (isAlias : e.IsAlias) (refers : e.type? = some target)
    (chain : index.AliasChain target rest last) : index.AliasChain e.offset (e :: rest) last

namespace TypeTable

def isFloatTypedef (settings : Settings) (e : Entry) : Bool :=
  e.tag == Tag.typedef && e.name?.any (namesFloat settings)

/-- How a type stands to the one behind a chain: the layout is the same, and each flag is set if it
was set there or if some entry of the chain sets it. -/
structure Aliased (settings : Settings) (chain : List Entry) (original type : SourceType) :
    Prop where
  size : type.size = original.size
  shape : type.shape = original.shape
  isSigned : type.isSigned = original.isSigned
  isConst : type.isConst = (chain.any (·.tag == Tag.constType) || original.isConst)
  isVolatile : type.isVolatile = (chain.any (·.tag == Tag.volatileType) || original.isVolatile)
  isFloat : type.isFloat = (chain.any (isFloatTypedef settings) || original.isFloat)

theorem Aliased.refl (settings : Settings) (type : SourceType) : Aliased settings [] type type :=
  ⟨rfl, rfl, rfl, rfl, rfl, rfl⟩

theorem Aliased.cons {settings : Settings} {e : Entry} {rest : List Entry}
    {original target type : SourceType} (first : Aliased settings [e] target type)
    (later : Aliased settings rest original target) :
    Aliased settings (e :: rest) original type where
  size := first.size.trans later.size
  shape := first.shape.trans later.shape
  isSigned := first.isSigned.trans later.isSigned
  isConst := by rw [first.isConst, later.isConst]; simp [Bool.or_assoc]
  isVolatile := by rw [first.isVolatile, later.isVolatile]; simp [Bool.or_assoc]
  isFloat := by rw [first.isFloat, later.isFloat]; simp [Bool.or_assoc]

section Visits

variable {table : TypeTable} {settings : Settings} {index : EntryIndex}
  {owners : List (Nat × Entry)} {last : Bool} {e : Entry} {type : SourceType}

def Matched (settings : Settings) (table : TypeTable) (e : Entry) (type : SourceType) : Prop :=
  ∃ target original, e.type? = some target ∧ table.at? target = some original ∧
    Aliased settings [e] original type

theorem typedefType?_matched (tag : e.tag = Tag.typedef)
    (made : typedefType? settings table e = some type) : Matched settings table e type := by
  obtain ⟨name, named, made⟩ := Option.bind_eq_some_iff.1 made
  obtain ⟨target, refers, made⟩ := Option.bind_eq_some_iff.1 made
  obtain ⟨original, known, made⟩ := Option.bind_eq_some_iff.1 made
  cases made
  refine ⟨target, original, refers, known, rfl, rfl, rfl, ?_, ?_, ?_⟩
  · simp [tag, Tag.typedef, Tag.constType]
  · simp [tag, Tag.typedef, Tag.volatileType]
  · simp [isFloatTypedef, tag, named, Bool.or_comm]

theorem qualifiedType?_matched (tag : e.tag = Tag.constType ∨ e.tag = Tag.volatileType)
    (made : qualifiedType? table e = some type) : Matched settings table e type := by
  obtain ⟨target, refers, made⟩ := Option.bind_eq_some_iff.1 made
  obtain ⟨original, known, made⟩ := Option.bind_eq_some_iff.1 made
  obtain rfl := Option.some.inj made
  refine ⟨target, original, refers, known, ?_⟩
  rcases tag with tag | tag
  · rw [if_pos tag]
    constructor <;>
      simp [isFloatTypedef, tag, Tag.constType, Tag.volatileType, Tag.typedef]
  · rw [if_neg (by simp [tag, Tag.constType, Tag.volatileType])]
    constructor <;>
      simp [isFloatTypedef, tag, Tag.constType, Tag.volatileType, Tag.typedef]

theorem entryType?_matched (isAlias : e.IsAlias)
    (made : entryType? settings index owners last table e = some type) :
    Matched settings table e type := by
  rcases isAlias with tag | tag
  · have typedef : entryType? settings index owners last table e =
        typedefType? settings table e := by
      simp [entryType?, tag, Tag.typedef, Tag.pointerType]
    exact typedefType?_matched tag (typedef.symm.trans made)
  · have qualified : entryType? settings index owners last table e = qualifiedType? table e := by
      rcases tag with tag | tag <;>
        simp [entryType?, tag, isCompositeTag, Tag.arrayType, Tag.structureType, Tag.unionType,
          Tag.pointerType, Tag.typedef, Tag.constType, Tag.volatileType]
    exact qualifiedType?_matched tag (qualified.symm.trans made)

theorem Matched.extended {later : TypeTable} (matched : Matched settings table e type)
    (extended : Extends table later) : Matched settings later e type := by
  obtain ⟨target, original, refers, known, aliased⟩ := matched
  exact ⟨target, original, refers, extended.at? known, aliased⟩

def AliasesMatched (settings : Settings) (index : EntryIndex) (table : TypeTable) : Prop :=
  ∀ e ∈ index.entries, e.IsAlias → ∀ type, table.at? e.offset = some type →
    Matched settings table e type

theorem not_isBase_of_isAlias (isAlias : e.IsAlias) : ¬ IsBase e := by
  rintro ⟨base, -⟩
  rcases isAlias with tag | tag | tag <;>
    simp [tag, Tag.baseType, Tag.enumerationType, Tag.typedef, Tag.constType,
      Tag.volatileType] at base

def Rooted (index : EntryIndex) (table : TypeTable) : Prop :=
  ∀ offset ∈ table.resolved, ∃ chain last, index.AliasChain offset chain last ∧
    last ∈ table.resolved ∧ ∀ e ∈ index.entries, e.offset = last → ¬ e.IsAlias

theorem Rooted.passEntry (rooted : Rooted index table) (drafted : table.Drafted) {visited : Entry}
    (listed : visited ∈ index.entries) :
    Rooted index (passEntry settings index owners last table visited) := by
  have extended : Extends table
      (TypeTable.passEntry settings index owners last table visited) :=
    extends_passEntry drafted
  have kept := extended.resolved
  intro offset found
  rcases (mem_resolved_passEntry drafted offset).1 found with known | ⟨rfl, ready⟩
  · obtain ⟨chain, root, leads, stored, plain⟩ := rooted offset known
    exact ⟨chain, root, leads, kept stored, plain⟩
  by_cases isAlias : visited.IsAlias
  · obtain ⟨type, made⟩ := Option.isSome_iff_exists.1
      ((isSome_entryType?_iff settings index).2 ready)
    obtain ⟨target, original, refers, known, -⟩ := entryType?_matched isAlias made
    obtain ⟨chain, root, leads, stored, plain⟩ :=
      rooted target (Option.isSome_iff_exists.2 ⟨original, known⟩)
    exact ⟨visited :: chain, root, .cons listed isAlias refers leads, kept stored, plain⟩
  · refine ⟨[], visited.offset, .nil _, found, fun e among same => ?_⟩
    obtain rfl := EntryIndex.eq_of_mem_entries among listed same
    exact isAlias

end Visits

section Drafts

variable {settings : Settings} {index : EntryIndex} {e : Entry}

theorem draft_aliasesMatched (settings : Settings) (index : EntryIndex) :
    AliasesMatched settings index (draft settings index) := by
  refine fun e listed isAlias type found => draft_forall
    (P := fun table e type => e.IsAlias → Matched settings table e type) ?_ ?_ ?_ e listed type
    found isAlias
  · exact fun table e type base isAlias => absurd base (not_isBase_of_isAlias isAlias)
  · exact fun small large e type matched extended isAlias => (matched isAlias).extended extended
  · exact fun last table e type drafted _ made isAlias =>
      (entryType?_matched isAlias made).extended (extends_passEntry drafted)

theorem draft_rooted (settings : Settings) (index : EntryIndex) :
    Rooted index (draft settings index) := by
  refine draft_induction ?_ fun last table drafted rooted visited listed =>
    rooted.passEntry drafted listed
  intro offset found
  obtain ⟨other, listed, rfl, base⟩ := (mem_resolved_early_zero settings index offset).1 found
  refine ⟨[], other.offset, .nil _, found, fun e among same isAlias => ?_⟩
  obtain rfl := EntryIndex.eq_of_mem_entries among listed same
  exact not_isBase_of_isAlias isAlias base

theorem Aliased.finalType {chain : List Entry} {original type : SourceType}
    (aliased : Aliased settings chain original type) (a b : TypeId) :
    Aliased settings chain (finalType settings index a original)
      (finalType settings index b type) where
  size := aliased.size
  shape := congrArg (draft settings index).finalShape aliased.shape
  isSigned := aliased.isSigned
  isConst := aliased.isConst
  isVolatile := aliased.isVolatile
  isFloat := aliased.isFloat

theorem at?_resolve_eq_some_iff {offset : Nat} {type : SourceType} :
    (resolve settings index).at? offset = some type ↔
      ∃ id drafted, (draft settings index).number? offset = some id ∧
        (draft settings index).get? id = some drafted ∧ finalType settings index id drafted = type := by
  have same : (resolve settings index).number? offset = (draft settings index).number? offset := rfl
  simp only [at?, same, Option.bind_eq_some_iff, get?_resolve_eq, Option.map_eq_some_iff]
  constructor
  · rintro ⟨id, known, drafted, stored, rfl⟩
    exact ⟨id, drafted, known, stored, rfl⟩
  · rintro ⟨id, drafted, known, stored, rfl⟩
    exact ⟨id, known, drafted, stored, rfl⟩

theorem resolve_aliasesMatched (settings : Settings) (index : EntryIndex) :
    AliasesMatched settings index (resolve settings index) := by
  intro e listed isAlias type found
  obtain ⟨id, drafted, known, stored, rfl⟩ := at?_resolve_eq_some_iff.1 found
  obtain ⟨target, original, refers, atTarget, aliased⟩ :=
    draft_aliasesMatched settings index e listed isAlias drafted
      (Option.bind_eq_some_iff.2 ⟨id, known, stored⟩)
  obtain ⟨other, knownThere, storedThere⟩ := Option.bind_eq_some_iff.1 atTarget
  exact ⟨target, finalType settings index other original, refers,
    at?_resolve_eq_some_iff.2 ⟨other, original, knownThere, storedThere, rfl⟩,
    aliased.finalType other id⟩

theorem aliased_of_chain {table : TypeTable} {offset last : Nat} {chain : List Entry}
    (leads : index.AliasChain offset chain last) (matched : AliasesMatched settings index table)
    {type : SourceType} (found : table.at? offset = some type) :
    ∃ original, table.at? last = some original ∧ Aliased settings chain original type := by
  induction leads generalizing type with
  | nil offset => exact ⟨type, found, .refl settings type⟩
  | cons listed isAlias refers _ ih =>
    obtain ⟨target, between, same, known, first⟩ := matched _ listed isAlias type found
    obtain rfl := Option.some.inj (refers.symm.trans same)
    obtain ⟨original, atLast, later⟩ := ih known
    exact ⟨original, atLast, first.cons later⟩

/-- A finished alias agrees with the type that it refers to, and with the one at the end of any chain
of aliases from it on. Some such chain ends at a type that is no alias. -/
theorem resolve_aliased (listed : e ∈ index.entries) (isAlias : e.IsAlias) {type : SourceType}
    (found : (resolve settings index).at? e.offset = some type) :
    (∃ target original, e.type? = some target ∧
      (resolve settings index).at? target = some original ∧ Aliased settings [e] original type) ∧
    (∀ chain last, index.AliasChain e.offset chain last → ∃ original,
      (resolve settings index).at? last = some original ∧ Aliased settings chain original type) ∧
    ∃ chain last, index.AliasChain e.offset chain last ∧
      ∀ other ∈ index.entries, other.offset = last → ¬ other.IsAlias := by
  have matched := resolve_aliasesMatched settings index
  refine ⟨matched e listed isAlias type found, fun chain last leads => ?_, ?_⟩
  · exact aliased_of_chain leads matched found
  · have resolved : e.offset ∈ (resolve settings index).resolved :=
      Option.isSome_iff_exists.2 ⟨type, found⟩
    rw [resolved_resolve] at resolved
    obtain ⟨chain, last, leads, -, plain⟩ := draft_rooted settings index e.offset resolved
    exact ⟨chain, last, leads, plain⟩

def handle : EntryIndex :=
  indexOf [referring 20 Tag.constType "" 24, referring 32 Tag.pointerType "" 64,
    referring 28 Tag.volatileType "" 32, referring 24 Tag.typedef "handle" 28]

theorem resolve_aliased_handle :
    ∃ e type, e ∈ handle.entries ∧ e.IsAlias ∧
      (resolve Settings.default handle).at? e.offset = some type ∧
      type.name = "handle const" ∧ type.shape = .pointer none ∧ type.isConst = true ∧
      type.isVolatile = true ∧
      ∃ chain original, handle.AliasChain e.offset chain 32 ∧
        (resolve Settings.default handle).at? 32 = some original ∧
        original.isConst = false ∧ original.isVolatile = false ∧
        Aliased Settings.default chain original type := by
  have found : (resolve Settings.default handle).at? 20 = some
      { SourceType.plain "handle const" 4 (.pointer none) 20 with
        isConst := true, isVolatile := true } := by
    decide +kernel
  have pointer : (resolve Settings.default handle).at? 32 = some
      (SourceType.plain "void *" 4 (.pointer none) 32) := by
    decide +kernel
  have listed : ∀ e ∈ [{ referring 20 Tag.constType "" 24 with unit := 11 },
      { referring 24 Tag.typedef "handle" 28 with unit := 11 },
      { referring 28 Tag.volatileType "" 32 with unit := 11 }], e ∈ handle.entries := by
    decide +kernel
  simp only [List.forall_mem_cons] at listed
  obtain ⟨first, second, third, -⟩ := listed
  have leads : handle.AliasChain 20 _ 32 := .cons first (.inr (.inl rfl)) rfl
    (.cons second (.inl rfl) rfl (.cons third (.inr (.inr rfl)) rfl (.nil 32)))
  obtain ⟨original, atLast, aliased⟩ :=
    (resolve_aliased first (.inr (.inl rfl)) found).2.1 _ 32 leads
  obtain rfl := Option.some.inj (pointer.symm.trans atLast)
  exact ⟨_, _, first, .inr (.inl rfl), found, rfl, rfl, rfl, rfl, _, _, leads, pointer, rfl, rfl,
    aliased⟩

end Drafts

end TypeTable

end SourceScope
