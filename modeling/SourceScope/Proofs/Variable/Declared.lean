import SourceScope.Proofs.Entry.Nesting
import SourceScope.Variable.Resolve

set_option autoImplicit false

namespace SourceScope

theorem EntryIndex.ancestorsFrom_prefix (index : EntryIndex) {fuel more : Nat} (enough : fuel ≤ more)
    (offset : Option Nat) : index.ancestorsFrom fuel offset <+: index.ancestorsFrom more offset := by
  induction fuel generalizing more offset with
  | zero => exact List.nil_prefix
  | succ fuel ih =>
    obtain ⟨more, rfl⟩ := Nat.exists_eq_add_one.2 (Nat.lt_of_lt_of_le (Nat.succ_pos fuel) enough)
    simp only [ancestorsFrom]
    split
    · exact List.prefix_rfl
    · exact (List.prefix_cons_inj _).2 (ih (Nat.le_of_succ_le_succ enough) _)

theorem EntryIndex.entry?_offset {index : EntryIndex} {offset : Option Nat} {entry : Entry}
    (found : offset.bind index.entry? = some entry) : index.entry? entry.offset = some entry := by
  obtain ⟨offset, -, found⟩ := Option.bind_eq_some_iff.1 found
  have same := List.find?_some found
  rw [beq_iff_eq] at same
  rw [same, found]

theorem EntryIndex.entry?_of_mem_ancestorsFrom {index : EntryIndex} {fuel : Nat}
    {offset : Option Nat} {entry : Entry} (member : entry ∈ index.ancestorsFrom fuel offset) :
    index.entry? entry.offset = some entry := by
  induction fuel generalizing offset with
  | zero => cases member
  | succ fuel ih =>
    simp only [ancestorsFrom] at member
    split at member
    · cases member
    next first found =>
      obtain rfl | member := List.mem_cons.1 member
      · exact entry?_offset found
      · exact ih member

theorem EntryIndex.mem_entries_of_ancestor {index : EntryIndex} {offset : Nat} {entry : Entry}
    (around : entry ∈ index.ancestors offset) : entry ∈ index.entries :=
  (index.mem_entries_iff entry).2 (entry?_of_mem_ancestorsFrom around)

theorem EntryIndex.ancestorsFrom_split {index : EntryIndex} {outer : Entry} {fuel : Nat}
    {offset : Option Nat} (enough : fuel ≤ index.size)
    (around : outer ∈ index.ancestorsFrom fuel offset) :
    ∃ front rest, index.ancestorsFrom fuel offset = front ++ rest ∧
      rest <+: outer :: index.ancestors outer.offset ∧
      ∀ p ∈ front, outer ∈ index.ancestors p.offset := by
  induction fuel generalizing offset with
  | zero => cases around
  | succ fuel ih =>
    have less : fuel ≤ index.size := Nat.le_of_succ_le enough
    cases found : offset.bind index.entry? with
    | none => simp [ancestorsFrom, found] at around
    | some first =>
      simp only [ancestorsFrom, found] at around ⊢
      have onward : index.ancestorsFrom fuel first.parent <+: index.ancestors first.offset := by
        rw [ancestors, entry?_offset found, Option.bind_some]
        exact ancestorsFrom_prefix index less first.parent
      obtain rfl | beyond := List.mem_cons.1 around
      · exact ⟨[], _, rfl, (List.prefix_cons_inj _).2 onward, by simp⟩
      · obtain ⟨front, rest, split, upTo, inside⟩ := ih less beyond
        refine ⟨first :: front, rest, by rw [split, List.cons_append], upTo, ?_⟩
        exact List.forall_mem_cons.2 ⟨onward.subset beyond, inside⟩

namespace CodeRange

def Within (r s : CodeRange) : Prop := s.first ≤ r.first ∧ r.last ≤ s.last

instance (r s : CodeRange) : Decidable (r.Within s) := inferInstanceAs (Decidable (_ ∧ _))

theorem contains_iff {r : CodeRange} {address : UInt32} :
    r.contains address = true ↔ r.first ≤ address ∧ address ≤ r.last := by
  simp [contains]

theorem overlaps_of_contains {r s : CodeRange} {address : UInt32} (first : r.contains address = true)
    (second : s.contains address = true) : r.overlaps s = true := by
  rw [contains_iff] at first second
  simp only [overlaps, Bool.and_eq_true, decide_eq_true_eq]
  exact ⟨UInt32.le_trans first.1 second.2, UInt32.le_trans second.1 first.2⟩

theorem Within.contains {r s : CodeRange} (within : r.Within s) {address : UInt32}
    (inside : r.contains address = true) : s.contains address = true := by
  rw [contains_iff] at inside ⊢
  exact ⟨UInt32.le_trans within.1 inside.1, UInt32.le_trans inside.2 within.2⟩

theorem Within.size {r s : CodeRange} (within : r.Within s) {address : UInt32}
    (inside : r.contains address = true) :
    r.size < s.size ∨ r.size = s.size ∧ r.first = s.first ∧ r.last = s.last := by
  rw [contains_iff] at inside
  simp only [Within, UInt32.le_iff_toNat_le] at within inside
  simp only [CodeRange.size, ← UInt32.toNat_inj]
  omega

end CodeRange

namespace VariableSet

variable {s : Source}

@[simp] theorem variableOf_name (s : Source) (f : Facts) (place : VariablePlace) :
    (variableOf s f place).name = f.name := by
  unfold variableOf
  split <;> rfl

@[simp] theorem variableOf_type (s : Source) (f : Facts) (place : VariablePlace) :
    (variableOf s f place).type = f.type := by
  unfold variableOf
  split <;> rfl

@[simp] theorem variableOf_size (s : Source) (f : Facts) (place : VariablePlace) :
    (variableOf s f place).size = f.size := by
  unfold variableOf
  split <;> rfl

@[simp] theorem variableOf_place (s : Source) (f : Facts) (place : VariablePlace) :
    (variableOf s f place).place = place := by
  unfold variableOf
  split <;> rfl

def localsOf (s : Source) (entry : Entry) : List LocalVariable :=
  if (entry.tag ≠ Tag.variable_ ∧ entry.tag ≠ Tag.formalParameter) ∨
      entry.flag Attr.declaration then []
  else
    match facts? s entry with
    | none => []
    | some f =>
      if f.isGlobal then []
      else
        match placeOf s f.unit entry, f.scope with
        | .located (.list entries), _ => listLocals s f entries
        | place, some scope => scopeLocals s f place scope
        | _, none => []

def declarations (s : Source) : List (Entry × LocalVariable) :=
  s.index.entries.flatMap fun entry => (localsOf s entry).map fun l => (entry, l)

theorem locals_addEntry (s : Source) (set : VariableSet) (entry : Entry) :
    (addEntry s set entry).locals = set.locals ++ localsOf s entry := by
  unfold addEntry localsOf
  split
  · simp
  cases facts? s entry with
  | none => simp
  | some f =>
    cases global : f.isGlobal with
    | true => simp [global, addGlobal]
    | false =>
      simp only [global, Bool.false_eq_true, if_false]
      generalize placeOf s f.unit entry = place
      cases place with
      | located location =>
        cases location with
        | list entries => simp [addLocals]
        | expression e => cases f.scope <;> simp [addLocals]
      | _ => cases f.scope <;> simp [addLocals]

theorem locals_resolve (s : Source) : (resolve s).locals = (declarations s).map (·.2) := by
  have step (entries : List Entry) (set : VariableSet) :
      (entries.foldl (addEntry s) set).locals = set.locals ++ entries.flatMap (localsOf s) := by
    induction entries generalizing set with
    | nil => simp
    | cons entry rest ih =>
      rw [List.foldl_cons, ih, locals_addEntry, List.flatMap_cons, List.append_assoc]
  rw [resolve, step, declarations, List.map_flatMap]
  simp [empty, Function.comp_def]

theorem facts?_eq_some {entry : Entry} {f : Facts} (found : facts? s entry = some f) :
    s.index.unit? entry.unit = some f.unit ∧
      f.scope = (s.index.ancestors entry.offset).find? isScope := by
  simp only [facts?, Option.bind_eq_bind, Option.bind_eq_some_iff, Option.pure_def,
    Option.some.injEq] at found
  obtain ⟨unit, known, -, -, -, -, -, -, rfl⟩ := found
  exact ⟨known, rfl⟩

def codeOf (s : Source) (unit : CompileUnit) (entry : Entry) : List CodeRange :=
  match entry.ranges unit.base s.ranges with
  | .ok found => found
  | .error _ => []

def codedScope? (s : Source) (unit : CompileUnit) (scope : Entry) : Option Entry :=
  (outward s.index scope).find? fun e => isScope e && !(codeOf s unit e).isEmpty

theorem scopeRanges_eq (s : Source) (unit : CompileUnit) (scope : Entry) :
    scopeRanges s unit scope = ((codedScope? s unit scope).map (codeOf s unit)).getD [] := by
  unfold scopeRanges codedScope?
  induction outward s.index scope with
  | nil => rfl
  | cons e rest ih =>
    cases inner : isScope e with
    | false => simpa [inner] using ih
    | true =>
      cases read : e.ranges unit.base s.ranges with
      | error cause => simpa [inner, codeOf, read] using ih
      | ok found =>
        cases found with
        | nil => simpa [inner, codeOf, read] using ih
        | cons r more => simp [inner, codeOf, read]

theorem mem_scopeRanges {unit : CompileUnit} {scope : Entry} {r : CodeRange} :
    r ∈ scopeRanges s unit scope ↔
      ∃ coded, codedScope? s unit scope = some coded ∧ r ∈ codeOf s unit coded := by
  rw [scopeRanges_eq]
  cases codedScope? s unit scope <;> simp

theorem codedScope?_around {unit : CompileUnit} {inner outer coded : Entry}
    (around : outer ∈ s.index.ancestors inner.offset)
    (found : codedScope? s unit inner = some coded) :
    outer ∈ s.index.ancestors coded.offset ∨ codedScope? s unit outer = some coded := by
  obtain ⟨front, rest, split, upTo, inside⟩ :=
    EntryIndex.ancestorsFrom_split (Nat.le_refl s.index.size) around
  rw [codedScope?, outward, EntryIndex.ancestors, split, ← List.cons_append, List.find?_append,
    Option.or_eq_some_iff] at found
  obtain nearer | ⟨-, farther⟩ := found
  · left
    obtain rfl | later := List.mem_cons.1 (List.mem_of_find?_eq_some nearer)
    · exact around
    · exact inside coded later
  · right
    obtain ⟨more, whole⟩ := upTo
    rw [codedScope?, outward, ← whole, List.find?_append, farther, Option.some_or]

/-- The code of a scope lies in that of any scope around it, and no scope has code twice. -/
structure CodeNests (s : Source) (unit : CompileUnit) : Prop where
  within : ∀ inner ∈ s.index.entries, isScope inner = true →
    ∀ outer ∈ s.index.ancestors inner.offset, isScope outer = true →
      scopeRanges s unit outer ≠ [] →
        ∀ r ∈ codeOf s unit inner, ∃ q ∈ scopeRanges s unit outer, r.Within q
  apart : ∀ scope ∈ s.index.entries, isScope scope = true →
    ∀ q ∈ scopeRanges s unit scope, ∀ r ∈ scopeRanges s unit scope, q.overlaps r = true → q = r

instance (s : Source) (unit : CompileUnit) : Decidable (CodeNests s unit) :=
  decidable_of_iff
    ((∀ inner ∈ s.index.entries, isScope inner = true →
        ∀ outer ∈ s.index.ancestors inner.offset, isScope outer = true →
          scopeRanges s unit outer ≠ [] →
            ∀ r ∈ codeOf s unit inner, ∃ q ∈ scopeRanges s unit outer, r.Within q) ∧
      ∀ scope ∈ s.index.entries, isScope scope = true →
        ∀ q ∈ scopeRanges s unit scope, ∀ r ∈ scopeRanges s unit scope,
          q.overlaps r = true → q = r)
    ⟨fun nests => ⟨nests.1, nests.2⟩, fun nests => ⟨nests.within, nests.apart⟩⟩

theorem CodeNests.range_within {unit : CompileUnit} (nests : CodeNests s unit)
    {inner outer : Entry} (known : inner ∈ s.index.entries)
    (around : outer ∈ s.index.ancestors inner.offset) (scope : isScope outer = true)
    {r q : CodeRange} (first : r ∈ scopeRanges s unit inner) (second : q ∈ scopeRanges s unit outer)
    {address : UInt32} (inFirst : r.contains address = true)
    (inSecond : q.contains address = true) : r.Within q := by
  have apart {p : CodeRange} (member : p ∈ scopeRanges s unit outer)
      (inside : p.contains address = true) : p = q :=
    nests.apart outer (EntryIndex.mem_entries_of_ancestor around) scope p member q second
      (CodeRange.overlaps_of_contains inside inSecond)
  obtain ⟨coded, found, own⟩ := mem_scopeRanges.1 first
  obtain inside | same := codedScope?_around around found
  · have listed : coded ∈ s.index.entries := by
      obtain rfl | farther := List.mem_cons.1 (List.mem_of_find?_eq_some found)
      · exact known
      · exact EntryIndex.mem_entries_of_ancestor farther
    have itself : isScope coded = true := by
      have := List.find?_some found
      simp only [Bool.and_eq_true] at this
      exact this.1
    obtain ⟨p, member, within⟩ := nests.within coded listed itself outer inside scope
      (List.ne_nil_of_mem second) r own
    rwa [← apart member (within.contains inFirst)]
  · -- neither scope has code up to the entry that both take theirs from
    obtain rfl := apart (mem_scopeRanges.2 ⟨coded, same, own⟩) inFirst
    exact ⟨UInt32.le_refl _, UInt32.le_refl _⟩

def hasLocationList (entry : Entry) : Bool :=
  match entry.attr? Attr.location with
  | some (.locationList _) => true
  | _ => false

theorem placeOf_ne_list {unit : CompileUnit} {entry : Entry} (plain : hasLocationList entry = false)
    (entries : List Location.Entry) : placeOf s unit entry ≠ .located (.list entries) := by
  unfold placeOf
  split
  · split <;> simp
  split
  · split <;> simp
  next offset found => simp [hasLocationList, found] at plain
  all_goals simp

theorem range_of_plain {entry scope : Entry} {l : LocalVariable}
    (declared : (entry, l) ∈ declarations s)
    (around : (s.index.ancestors entry.offset).find? isScope = some scope)
    (plain : hasLocationList entry = false) :
    ∃ unit, s.index.unit? entry.unit = some unit ∧ l.range ∈ scopeRanges s unit scope := by
  simp only [declarations, List.mem_flatMap, List.mem_map, Prod.mk.injEq] at declared
  obtain ⟨e, -, m, own, rfl, rfl⟩ := declared
  unfold localsOf at own
  split at own
  · cases own
  cases found : facts? s e with
  | none => simp [found] at own
  | some f =>
    obtain ⟨known, innermost⟩ := facts?_eq_some found
    rw [around] at innermost
    refine ⟨f.unit, known, ?_⟩
    simp only [found, innermost] at own
    split at own
    · cases own
    split at own
    next entries list => exact absurd list (placeOf_ne_list plain entries)
    next same _ =>
      obtain rfl := Option.some.inj same
      obtain ⟨range, member, rfl⟩ := List.mem_map.1 own
      exact member
    next absent _ => cases absent

end VariableSet

end SourceScope
