import SourceScope.Function.Resolve
import SourceScope.Proofs.Code.RangeLists
import SourceScope.Proofs.Entry.Outward
import SourceScope.Proofs.Function.Merged
import SourceScope.Proofs.Outcome

set_option autoImplicit false

namespace SourceScope

theorem Entry.ranges_plain {e : Entry} {base : UInt32} {lists : RangeSection}
    {code : List CodeRange} (decoded : e.ranges base lists = .ok code) :
    ∀ r ∈ code, r.inlined = false := by
  unfold Entry.ranges at decoded
  split at decoded
  next low _ =>
    split at decoded
    next high _ =>
      obtain rfl := Except.ok.inj decoded
      exact CodeRange.ofHalfOpen?_plain low high
    next =>
      obtain rfl := Except.ok.inj decoded
      simp
  next =>
    split at decoded
    next offset _ =>
      unfold RangeSection.ranges at decoded
      split at decoded
      · cases decoded
      · exact RangeList.ranges_plain _ _ _ decoded
    next =>
      obtain rfl := Except.ok.inj decoded
      simp

inductive EntryIndex.Finds (index : EntryIndex) (text? : Entry → Option String) :
    Nat → Entry → String → Prop where
  | own {further : Nat} {e : Entry} {text : String} (has : text? e = some text) :
      index.Finds text? further e text
  | origin {further : Nat} {e o : Entry} {text : String} (lacks : text? e = none)
      (follows : index.originOf? e = some o) (found : index.Finds text? further o text) :
      index.Finds text? (further + 1) e text

namespace FunctionSet

section

variable (index : EntryIndex) (lists : RangeSection) (locations : LocationSection)

def instances (entries : List Entry) : List (Nat × SourceFunction) :=
  entries.filterMap fun e => Option.map (e.offset, ·) <| ofEntry? index lists locations e

theorem gathered_addEntry {entries : List Entry} {set : FunctionSet}
    (gathered : Gathered (instances index lists locations entries) set) (e : Entry) :
    Gathered (instances index lists locations (entries ++ [e]))
      (addEntry index lists locations set e) := by
  unfold addEntry
  rw [instances, List.filterMap_append, ← instances]
  cases found : ofEntry? index lists locations e with
  | none => simpa [found] using gathered
  | some f => simpa [found] using gathered.insert e.offset f

theorem gathered_foldl (entries later : List Entry) {set : FunctionSet}
    (gathered : Gathered (instances index lists locations entries) set) :
    Gathered (instances index lists locations (entries ++ later))
      (later.foldl (addEntry index lists locations) set) := by
  induction later generalizing entries set with
  | nil => simpa using gathered
  | cons e rest ih =>
    simpa using ih (entries ++ [e]) (gathered_addEntry index lists locations gathered e)

theorem resolve_gathered :
    Gathered (instances index lists locations index.entries) (resolve index lists locations) :=
  gathered_foldl index lists locations [] index.entries gathered_empty

end

section

variable {index : EntryIndex} {text? : Entry → Option String}

theorem finds_zero_iff {e : Entry} {text : String} :
    index.Finds text? 0 e text ↔ text? e = some text := by
  constructor
  · rintro (has | _)
    exact has
  · exact .own

theorem finds_succ_iff {further : Nat} {e : Entry} {text : String} :
    index.Finds text? (further + 1) e text ↔
      text? e = some text ∨
        text? e = none ∧ ∃ o, index.originOf? e = some o ∧ index.Finds text? further o text := by
  constructor
  · rintro (has | ⟨lacks, follows, found⟩)
    · exact .inl has
    · exact .inr ⟨lacks, _, follows, found⟩
  · rintro (has | ⟨lacks, o, follows, found⟩)
    · exact .own has
    · exact .origin lacks follows found

theorem findSome?_lineage (e : Entry) (text : String) :
    (lineage index e).findSome? text? = some text ↔ index.Finds text? 2 e text := by
  simp only [finds_succ_iff, finds_zero_iff, lineage]
  cases own : text? e with
  | some found => split <;> [skip; split] <;> simp [own]
  | none =>
    cases origin : index.originOf? e with
    | none => simp [own]
    | some o =>
      cases further : index.originOf? o with
      | none => cases atOrigin : text? o <;> simp [own, atOrigin, further]
      | some last => cases atOrigin : text? o <;> simp [own, atOrigin, further]

end

def Named (index : EntryIndex) (e : Entry) (name : String) : Prop :=
  index.Finds Entry.name? 2 e name ∨
    (∀ other, ¬index.Finds Entry.name? 2 e other) ∧ index.Finds Entry.linkageName? 2 e name

theorem nameOf?_eq_some_iff (index : EntryIndex) (e : Entry) (name : String) :
    nameOf? index e = some name ↔ Named index e name := by
  simp only [Named, ← findSome?_lineage, nameOf?]
  cases found : (lineage index e).findSome? Entry.name? <;> simp

structure Occurrence (index : EntryIndex) (lists : RangeSection) (e : Entry) (name : String)
    (code : List CodeRange) : Prop where
  listed : index.entry? e.offset = some e
  kind : e.tag = Tag.subprogram ∨ e.tag = Tag.inlinedSubroutine
  -- A list that breaks off counts as none, also where it begins well.
  decoded : ∃ unit, index.unit? e.unit = some unit ∧ e.ranges unit.base lists = .ok code
  hasCode : code ≠ []
  named : Named index e name

def markedBy (e : Entry) (r : CodeRange) : CodeRange :=
  { r with inlined := e.tag == Tag.inlinedSubroutine }

section

variable {index : EntryIndex} {lists : RangeSection} {locations : LocationSection}

theorem map_markedBy (e : Entry) {code : List CodeRange} (plain : ∀ r ∈ code, r.inlined = false) :
    code.map (markedBy e) =
      if e.tag == Tag.inlinedSubroutine then code.map (·.markInlined) else code := by
  split
  next inlined =>
    refine List.map_congr_left fun r _ => ?_
    rw [markedBy, inlined, CodeRange.markInlined]
  next outOfLine =>
    have same : ∀ r ∈ code, markedBy e r = r := fun r member => by
      rw [markedBy, Bool.eq_false_iff.2 outOfLine, ← plain r member]
    exact (List.map_congr_left same).trans (List.map_id code)

theorem exists_ofEntry?_iff {e : Entry} (listed : index.entry? e.offset = some e) (name : String)
    (found : List CodeRange) :
    (∃ f, ofEntry? index lists locations e = some f ∧ f.name = name ∧ f.ranges = found) ↔
      ∃ code, Occurrence index lists e name code ∧ found = code.map (markedBy e) := by
  simp only [ ofEntry?, Option.bind_eq_bind, Option.pure_def, Option.bind_none,
    Option.ite_none_left_eq_some, Option.bind_eq_some_iff, toOption_eq_some_iff,
    nameOf?_eq_some_iff, Option.some.injEq]
  constructor
  · rintro ⟨_, ⟨kind, unit, known, code, decoded, hasCode, _, named, rfl⟩, rfl, rfl⟩
    refine ⟨code, ⟨listed, ?_, ⟨unit, known, decoded⟩, by simpa using hasCode, named⟩, ?_⟩
    · by_cases subprogram : e.tag = Tag.subprogram
      · exact .inl subprogram
      · exact .inr (by simpa [subprogram] using kind)
    · exact (map_markedBy e (Entry.ranges_plain decoded)).symm
  · rintro ⟨code, occurrence, rfl⟩
    obtain ⟨unit, known, decoded⟩ := occurrence.decoded
    refine ⟨_, ⟨?_, unit, known, code, decoded, by simpa using occurrence.hasCode, name,
      occurrence.named, rfl⟩, rfl, (map_markedBy e (Entry.ranges_plain decoded)).symm⟩
    rcases occurrence.kind with subprogram | inlined
    · simp [subprogram]
    · simp [inlined]

theorem exists_instance_iff {offset : Nat} {name : String} {found : List CodeRange} :
    (∃ f, (offset, f) ∈ instances index lists locations index.entries ∧ f.name = name ∧
      f.ranges = found) ↔
      ∃ e code, e.offset = offset ∧ Occurrence index lists e name code ∧
        found = code.map (markedBy e) := by
  simp only [instances, List.mem_filterMap, EntryIndex.mem_entries_iff, Option.map_eq_some_iff,
    Prod.mk.injEq]
  constructor
  · rintro ⟨f, ⟨e, listed, _, made, rfl, rfl⟩, named, ranges⟩
    obtain ⟨code, occurrence, same⟩ :=
      (exists_ofEntry?_iff listed name found).1 ⟨_, made, named, ranges⟩
    exact ⟨e, code, rfl, occurrence, same⟩
  · rintro ⟨e, code, rfl, occurrence, same⟩
    obtain ⟨f, made, named, ranges⟩ :=
      (exists_ofEntry?_iff occurrence.listed name found).2 ⟨code, occurrence, same⟩
    exact ⟨f, ⟨e, occurrence.listed, f, made, rfl, rfl⟩, named, ranges⟩

theorem Occurrence.name_eq {e : Entry} {first second : String} {code other : List CodeRange}
    (a : Occurrence index lists e first code) (b : Occurrence index lists e second other) :
    first = second := by
  have named := (nameOf?_eq_some_iff index e first).2 a.named
  rw [(nameOf?_eq_some_iff index e second).2 b.named] at named
  exact (Option.some.inj named).symm

/-- Each search for the function around an inlined copy comes to an end. These are all the searches
outward that functions take. -/
def Returns (index : EntryIndex) (lists : RangeSection) : Prop :=
  ∀ e name code, Occurrence index lists e name code → e.tag = Tag.inlinedSubroutine →
    index.Ends (·.tag == Tag.subprogram) e.parent

structure Merges (index : EntryIndex) (lists : RangeSection) (locations : LocationSection)
    (set : FunctionSet) : Prop where
  forEntry : ∀ offset, (∃ id, set.forEntry? offset = some id) ↔
    ∃ e name code, e.offset = offset ∧ Occurrence index lists e name code
  carries : ∀ e name code id, Occurrence index lists e name code →
    set.forEntry? e.offset = some id → ∃ f, set.get? id = some f ∧ f.name = name
  distinct : ∀ m n f g, set.get? m = some f → set.get? n = some g → f.name = g.name → m = n
  stems : ∀ id f, set.get? id = some f → ∃ e code, Occurrence index lists e f.name code
  ranges : ∀ id f, set.get? id = some f → ∀ r, r ∈ f.ranges ↔
    ∃ e code, Occurrence index lists e f.name code ∧ r ∈ code.map (markedBy e)
  -- An inlined copy is framed as the entry is that the search outward comes to.
  framed : ∀ e name code unit, Occurrence index lists e name code →
    e.tag = Tag.inlinedSubroutine → index.unit? e.unit = some unit →
      ∃ f passed found, ofEntry? index lists locations e = some f ∧
        index.Searches (·.tag == Tag.subprogram) e.parent passed found ∧
        f.frameBase = found.bind (frameBaseOf? unit locations)

theorem Occurrence.framed {e : Entry} {name : String} {code : List CodeRange} {unit : CompileUnit}
    {passed : List Entry} {found : Option Entry} (occurrence : Occurrence index lists e name code)
    (inlined : e.tag = Tag.inlinedSubroutine) (known : index.unit? e.unit = some unit)
    (searches : index.Searches (·.tag == Tag.subprogram) e.parent passed found) :
    ∃ f, ofEntry? index lists locations e = some f ∧
      f.frameBase = found.bind (frameBaseOf? unit locations) := by
  obtain ⟨f, made, -, -⟩ : ∃ f, ofEntry? index lists locations e = some f ∧ f.name = name ∧ _ :=
    (exists_ofEntry?_iff occurrence.listed name _).2 ⟨code, occurrence, rfl⟩
  refine ⟨f, made, ?_⟩
  simp only [ ofEntry?, Option.bind_eq_bind, Option.pure_def, Option.bind_none,
    Option.ite_none_left_eq_some, Option.bind_eq_some_iff, Option.some.injEq] at made
  obtain ⟨-, owner, owned, _, -, -, _, -, rfl⟩ := made
  obtain rfl := Option.some.inj (known.symm.trans owned)
  simp [inlined, searches.find?_ancestors occurrence.listed]

theorem returns_build {pushes : List EntryIndex.Push}
    (distinct : (EntryIndex.History.of pushes).Distinct) (lists : RangeSection) :
    Returns (.build pushes) lists := by
  intro e name code occurrence _
  have listed := (EntryIndex.mem_entries_iff _ e).2 occurrence.listed
  exact ((EntryIndex.nested_build distinct).ends listed _).1

/-- Where no offset is pushed twice all searches outward come to an end. Wherever they do, the
functions of an index are the entries with code and a name, merged by their names: no range of them
is lost, and none is added. -/
theorem resolve_merges (index : EntryIndex) (lists : RangeSection) (locations : LocationSection) :
    (∀ pushes, index = .build pushes → (EntryIndex.History.of pushes).Distinct →
      Returns index lists) ∧
    (Returns index lists → Merges index lists locations (resolve index lists locations)) := by
  constructor
  · rintro pushes rfl distinct
    exact returns_build distinct lists
  intro returns
  have gathered := resolve_gathered index lists locations
  constructor
  case forEntry =>
    intro offset
    constructor
    · rintro ⟨id, found⟩
      obtain ⟨⟨_, f⟩, among, rfl, -⟩ := gathered.noted offset id found
      obtain ⟨e, code, same, occurrence, -⟩ := exists_instance_iff.1 ⟨f, among, rfl, rfl⟩
      exact ⟨e, f.name, code, same, occurrence⟩
    · rintro ⟨e, name, code, rfl, occurrence⟩
      obtain ⟨f, among, -⟩ := exists_instance_iff.2 ⟨e, code, rfl, occurrence, rfl⟩
      exact gathered.complete (e.offset, f) among
  case carries =>
    intro e name code id occurrence found
    obtain ⟨⟨_, f⟩, among, rfl, named⟩ := gathered.noted e.offset id found
    obtain ⟨other, code', same, made, -⟩ := exists_instance_iff.1 ⟨f, among, rfl, rfl⟩
    -- only one entry has the offset
    have listed := made.listed
    rw [same, occurrence.listed] at listed
    obtain rfl := Option.some.inj listed
    rw [names_getElem?, Option.map_eq_some_iff] at named
    rwa [occurrence.name_eq made]
  case distinct => exact fun m n f g => gathered.id_eq
  case stems =>
    intro id f found
    have known : f.name ∈ names _ := List.mem_map.2 ⟨f, List.mem_of_getElem? found, rfl⟩
    obtain ⟨⟨offset, g⟩, among, named⟩ := (gathered.named f.name).1 known
    obtain ⟨e, code, -, occurrence, -⟩ := exists_instance_iff.1 ⟨g, among, named, rfl⟩
    exact ⟨e, code, occurrence⟩
  case ranges =>
    intro id f found r
    rw [gathered.mem_ranges_iff found]
    constructor
    · rintro ⟨⟨offset, g⟩, among, named, member⟩
      obtain ⟨e, code, -, occurrence, ranges⟩ := exists_instance_iff.1 ⟨g, among, named, rfl⟩
      exact ⟨e, code, occurrence, ranges ▸ member⟩
    · rintro ⟨e, code, occurrence, member⟩
      obtain ⟨g, among, named, ranges⟩ := exists_instance_iff.2 ⟨e, code, rfl, occurrence, rfl⟩
      exact ⟨(e.offset, g), among, named, ranges ▸ member⟩
  case framed =>
    intro e name code unit occurrence inlined known
    obtain ⟨passed, found, searches⟩ := returns e name code occurrence inlined
    obtain ⟨f, made, framed⟩ := occurrence.framed inlined known searches
    exact ⟨f, passed, found, made, searches, framed⟩

end

def innerCopy : Entry where
  offset := 48
  tag := Tag.inlinedSubroutine
  unit := 11
  depth := 2
  parent := some 32
  attributes := [(Attr.abstractOrigin, .reference 64), (Attr.lowPc, .address 0x110),
    (Attr.highPc, .unsigned 8)]

def innerItself : Entry where
  offset := 80
  tag := Tag.subprogram
  unit := 11
  depth := 1
  parent := none
  attributes := [(Attr.abstractOrigin, .reference 64), (Attr.lowPc, .address 0x200),
    (Attr.highPc, .unsigned 4)]

def copied : List EntryIndex.Push :=
  [.unit ⟨11, "", none, 0, [], [], []⟩,
    .entry 11 ⟨32, Tag.subprogram, 0, 1, none, [(Attr.name, .text "outer"),
      (Attr.lowPc, .address 0x100), (Attr.highPc, .unsigned 0x40)]⟩,
    .entry 11 innerCopy,
    .entry 11 ⟨64, Tag.subprogram, 0, 1, none, [(Attr.name, .text "inner")]⟩,
    .entry 11 innerItself]

theorem resolve_merges_copied :
    (EntryIndex.History.of copied).Distinct ∧ Returns (.build copied) ⟨.little, []⟩ ∧
      ∃ set id f, resolve (.build copied) ⟨.little, []⟩ ⟨.little, []⟩ = set ∧
        set.forEntry? 48 = some id ∧ set.get? id = some f ∧
        f.name = "inner" ∧ ⟨0x110, 0x117, true⟩ ∈ f.ranges ∧ ⟨0x200, 0x203, false⟩ ∈ f.ranges := by
  have distinct : (EntryIndex.History.of copied).Distinct := by decide
  obtain ⟨returns, merges⟩ := resolve_merges (.build copied) ⟨.little, []⟩ ⟨.little, []⟩
  have returned := returns copied rfl distinct
  have merged := merges returned
  have copy : Occurrence (.build copied) ⟨.little, []⟩ innerCopy "inner" [⟨0x110, 0x117, false⟩] :=
    ⟨rfl, .inr rfl, ⟨_, rfl, rfl⟩, by simp, .inl (.origin rfl rfl (.own rfl))⟩
  have itself : Occurrence (.build copied) ⟨.little, []⟩ innerItself "inner"
      [⟨0x200, 0x203, false⟩] :=
    ⟨rfl, .inl rfl, ⟨_, rfl, rfl⟩, by simp, .inl (.origin rfl rfl (.own rfl))⟩
  obtain ⟨id, found⟩ := (merged.forEntry 48).2 ⟨innerCopy, "inner", _, rfl, copy⟩
  obtain ⟨f, listed, named⟩ := merged.carries innerCopy "inner" _ id copy found
  have ranges := merged.ranges id f listed
  rw [named] at ranges
  exact ⟨distinct, returned, _, id, f, rfl, found, listed, named,
    (ranges _).2 ⟨innerCopy, _, copy, by decide⟩, (ranges _).2 ⟨innerItself, _, itself, by decide⟩⟩

end FunctionSet

end SourceScope
