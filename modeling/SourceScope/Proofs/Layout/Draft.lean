import SourceScope.Layout.Resolve

set_option autoImplicit false

namespace SourceScope

namespace SourceType

def target? (t : SourceType) : Option TypeId :=
  match t.shape with
  | .pointer target => target
  | _ => none

def parts (t : SourceType) : List TypeId :=
  match t.shape with
  | .array element _ => [element]
  | .composite _ members => members.map (·.type)
  | _ => []

def references (t : SourceType) : List TypeId := t.target?.toList ++ t.parts

end SourceType

namespace TypeTable

structure Drafted (table : TypeTable) : Prop where
  bounded : ∀ (offset : Nat) (id : TypeId), table.number? offset = some id → id < table.slots.size
  separate : ∀ (a b : Nat) (id : TypeId), table.number? a = some id → table.number? b = some id →
    a = b
  located : ∀ (offset : Nat) (id : TypeId) (type : SourceType), table.number? offset = some id →
    table.get? id = some type → type.offset = offset
  parts : ∀ (id : TypeId) (type : SourceType), table.get? id = some type →
    ∀ part ∈ type.parts, (table.get? part).isSome
  inhabited : ∀ (id : TypeId) (type : SourceType), table.get? id = some type →
    type.isComposite → type.members ≠ []

structure Fits (table : TypeTable) (offset : Nat) (type : SourceType) : Prop where
  located : type.offset = offset
  parts : ∀ part ∈ type.parts, (table.get? part).isSome
  inhabited : type.isComposite → type.members ≠ []

section Growth

variable {table : TypeTable}

theorem drafted_empty : Drafted .empty := by
  constructor <;> simp [number?, get?, empty]

theorem lt_of_get? {id : TypeId} {type : SourceType} (found : table.get? id = some type) :
    id < table.slots.size := by
  unfold get? at found
  by_cases bound : id < table.slots.size
  · exact bound
  · simp [Array.getElem?_eq_none (Nat.le_of_not_lt bound)] at found

theorem number?_allocate (table : TypeTable) (offset other : Nat) :
    (table.allocate offset).2.number? other =
      if other = offset then some (table.allocate offset).1 else table.number? other := by
  unfold allocate
  split
  next id known =>
    split
    next same => rw [same, known]
    next => rfl
  next =>
    simp only [number?, List.lookup_cons]
    split <;> simp_all

theorem get?_allocate (table : TypeTable) (offset : Nat) (id : TypeId) :
    (table.allocate offset).2.get? id = table.get? id := by
  unfold allocate
  split
  next => rfl
  next =>
    simp only [get?, Array.getElem?_push]
    split
    next same => simp [same]
    next => rfl

theorem size_allocate (table : TypeTable) (offset : Nat) :
    table.slots.size ≤ (table.allocate offset).2.slots.size := by
  unfold allocate
  split <;> simp

theorem Drafted.allocate_lt (drafted : table.Drafted) (offset : Nat) :
    (table.allocate offset).1 < (table.allocate offset).2.slots.size := by
  unfold TypeTable.allocate
  split
  next id known => exact drafted.bounded offset id known
  next => simp

theorem number?_allocate_self (table : TypeTable) (offset : Nat) :
    (table.allocate offset).2.number? offset = some (table.allocate offset).1 := by
  rw [number?_allocate, if_pos rfl]

theorem Drafted.allocate (drafted : table.Drafted) (offset : Nat) :
    (table.allocate offset).2.Drafted := by
  -- An offset's number is an old one or the next free one, and either way no other offset's.
  have fresh (other : Nat) (id : TypeId) (known : table.number? other = some id)
      (same : (table.allocate offset).1 = id) : other = offset := by
    subst same
    unfold TypeTable.allocate at known
    split at known
    next id found => exact drafted.separate other offset id known found
    next => exact absurd (drafted.bounded other _ known) (Nat.lt_irrefl _)
  constructor
  case bounded =>
    intro other id known
    rw [number?_allocate] at known
    split at known
    next =>
      obtain rfl := Option.some.inj known
      exact drafted.allocate_lt offset
    next => exact Nat.lt_of_lt_of_le (drafted.bounded other id known) (size_allocate table offset)
  case separate =>
    intro a b id first second
    rw [number?_allocate] at first second
    split at first <;> split at second
    next atA atB => rw [atA, atB]
    next atA _ => exact atA.trans (fresh b id second (Option.some.inj first)).symm
    next _ atB => exact (fresh a id first (Option.some.inj second)).trans atB.symm
    next => exact drafted.separate a b id first second
  case located =>
    intro other id type known found
    rw [get?_allocate] at found
    rw [number?_allocate] at known
    split at known
    next same =>
      obtain rfl := Option.some.inj known
      -- A number that has a type is not a new one, so the offset had it before.
      unfold TypeTable.allocate at found
      split at found
      next id before => rw [same]; exact drafted.located offset id type before found
      next => exact absurd (lt_of_get? found) (Nat.lt_irrefl _)
    next => exact drafted.located other id type known found
  case parts =>
    intro id type found part member
    rw [get?_allocate] at found ⊢
    exact drafted.parts id type found part member
  case inhabited =>
    intro id type found
    rw [get?_allocate] at found
    exact drafted.inhabited id type found

theorem get?_define (drafted : table.Drafted) (offset : Nat) (type : SourceType) (id : TypeId) :
    (table.define offset type).get? id =
      if (table.allocate offset).1 = id then some type else table.get? id := by
  have bound := drafted.allocate_lt offset
  rw [← get?_allocate table offset id]
  simp only [define, get?, Array.getElem?_setIfInBounds, bound]
  split <;> simp

theorem isSome_get?_define (drafted : table.Drafted) {offset : Nat} {type : SourceType}
    {id : TypeId} (resolved : (table.get? id).isSome) :
    ((table.define offset type).get? id).isSome := by
  rw [get?_define drafted]
  split
  next => rfl
  next => exact resolved

theorem Drafted.define (drafted : table.Drafted) {offset : Nat} {type : SourceType}
    (fits : table.Fits offset type) : (table.define offset type).Drafted := by
  have allocated := drafted.allocate offset
  constructor
  case bounded =>
    intro other id known
    simpa [TypeTable.define] using allocated.bounded other id known
  case separate => exact allocated.separate
  case located =>
    intro other id stored known found
    rw [get?_define drafted] at found
    split at found
    next same =>
      cases found
      subst same
      rw [fits.located]
      exact allocated.separate offset other _ (number?_allocate_self table offset) known
    next =>
      rw [← get?_allocate table offset] at found
      exact allocated.located other id stored known found
  case parts =>
    intro id stored found part member
    apply isSome_get?_define drafted
    rw [get?_define drafted] at found
    split at found
    next => cases found; exact fits.parts part member
    next => exact drafted.parts id stored found part member
  case inhabited =>
    intro id stored found
    rw [get?_define drafted] at found
    split at found
    next => cases found; exact fits.inhabited
    next => exact drafted.inhabited id stored found

end Growth

section Steps

variable {table : TypeTable} {settings : Settings} {entry : Entry} {type target : SourceType}

theorem idAt?_resolved {offset : Nat} {id : TypeId} (found : table.idAt? offset = some id) :
    table.number? offset = some id ∧ (table.get? id).isSome := by
  unfold idAt? at found
  split at found
  next => cases found
  next known =>
    split at found
    next resolved => cases found; exact ⟨known, resolved⟩
    next => cases found

theorem Fits.of_leaf {offset : Nat} (located : type.offset = offset) (leaf : type.parts = [])
    (plain : type.isComposite = false) : table.Fits offset type where
  located := located
  parts := by simp [leaf]
  inhabited := by simp [plain]

theorem Drafted.fits_copy (drafted : table.Drafted) {offset : Nat}
    (found : table.at? offset = some target) (located : type.offset = entry.offset)
    (shape : type.shape = target.shape) : table.Fits entry.offset type := by
  obtain ⟨id, -, stored⟩ := Option.bind_eq_some_iff.1 found
  refine ⟨located, ?_, ?_⟩
  · simpa only [SourceType.parts, shape] using drafted.parts id target stored
  · simpa only [SourceType.isComposite, SourceType.members, shape] using
      drafted.inhabited id target stored

theorem baseType?_leaf (found : baseType? settings entry = some type) :
    type.offset = entry.offset ∧ type.shape = .base := by
  unfold baseType? at found
  simp only [Option.bind_eq_bind, Option.bind_some] at found
  split at found
  next =>
    obtain ⟨size, -, found⟩ := Option.bind_eq_some_iff.1 found
    cases found
    exact ⟨rfl, rfl⟩
  next =>
    split at found
    next =>
      obtain ⟨size, -, found⟩ := Option.bind_eq_some_iff.1 found
      cases found
      exact ⟨rfl, rfl⟩
    next => cases found

theorem baseType?_fits (found : baseType? settings entry = some type) :
    table.Fits entry.offset type := by
  obtain ⟨located, shape⟩ := baseType?_leaf found
  exact .of_leaf located (by simp [SourceType.parts, shape])
    (by simp [SourceType.isComposite, shape])

theorem Drafted.typedefType?_fits (drafted : table.Drafted)
    (found : typedefType? settings table entry = some type) : table.Fits entry.offset type := by
  obtain ⟨name, -, found⟩ := Option.bind_eq_some_iff.1 found
  obtain ⟨offset, -, found⟩ := Option.bind_eq_some_iff.1 found
  obtain ⟨target, atOffset, found⟩ := Option.bind_eq_some_iff.1 found
  cases found
  exact drafted.fits_copy atOffset rfl rfl

theorem Drafted.qualifiedType?_fits (drafted : table.Drafted)
    (found : qualifiedType? table entry = some type) : table.Fits entry.offset type := by
  obtain ⟨offset, -, found⟩ := Option.bind_eq_some_iff.1 found
  obtain ⟨target, atOffset, found⟩ := Option.bind_eq_some_iff.1 found
  obtain rfl := Option.some.inj found
  split <;> exact drafted.fits_copy atOffset rfl rfl

theorem arrayType?_fits {index : EntryIndex} (found : arrayType? index table entry = some type) :
    table.Fits entry.offset type := by
  obtain ⟨offset, -, found⟩ := Option.bind_eq_some_iff.1 found
  obtain ⟨element, atOffset, found⟩ := Option.bind_eq_some_iff.1 found
  obtain ⟨elementType, -, found⟩ := Option.bind_eq_some_iff.1 found
  cases found
  refine ⟨rfl, ?_, by simp [SourceType.isComposite, SourceType.plain]⟩
  simpa [SourceType.parts, SourceType.plain] using (idAt?_resolved atOffset).2

theorem member?_resolved {member : Member} (found : member? table entry = some member) :
    (table.get? member.type).isSome := by
  obtain ⟨offset, -, found⟩ := Option.bind_eq_some_iff.1 found
  obtain ⟨id, atOffset, found⟩ := Option.bind_eq_some_iff.1 found
  obtain ⟨place, -, found⟩ := Option.bind_eq_some_iff.1 found
  cases found
  exact (idAt?_resolved atOffset).2

theorem compositeType?_fits {owners : List (Nat × Entry)} {last : Bool}
    (found : compositeType? settings owners table last entry = some type) :
    table.Fits entry.offset type := by
  unfold compositeType? at found
  simp only at found
  split at found
  next => cases found
  next accepted =>
    cases found
    have some_ : (membersOf owners entry.offset).filterMap (member? table) ≠ [] := by
      intro empty
      simp [empty] at accepted
    refine ⟨rfl, ?_, fun _ => by simpa [SourceType.members, SourceType.plain] using some_⟩
    intro part member
    obtain ⟨m, listed, rfl⟩ := List.mem_map.1 member
    obtain ⟨memberEntry, -, atEntry⟩ := List.mem_filterMap.1 listed
    exact member?_resolved atEntry

theorem Drafted.pointerType (drafted : table.Drafted) (entry : Entry) :
    (pointerType table entry).2.Drafted ∧
      (pointerType table entry).2.Fits entry.offset (pointerType table entry).1 := by
  unfold TypeTable.pointerType
  split
  next => exact ⟨drafted, .of_leaf rfl rfl rfl⟩
  next offset _ => exact ⟨drafted.allocate offset, .of_leaf rfl rfl rfl⟩

theorem Drafted.passEntry (drafted : table.Drafted) (settings : Settings)
    (index : EntryIndex) (owners : List (Nat × Entry)) (last : Bool) (entry : Entry) :
    (passEntry settings index owners last table entry).Drafted := by
  unfold TypeTable.passEntry
  split
  next => exact drafted
  next =>
    split
    next =>
      have ⟨allocated, fits⟩ := drafted.pointerType entry
      exact allocated.define fits
    next =>
      simp only
      split
      next type found =>
        apply drafted.define
        split at found
        next => exact drafted.typedefType?_fits found
        next =>
          split at found
          next => exact compositeType?_fits found
          next =>
            split at found
            next => exact arrayType?_fits found
            next =>
              split at found
              next => exact drafted.qualifiedType?_fits found
              next => cases found
      next => exact drafted

theorem Drafted.withBaseTypes (drafted : table.Drafted) (settings : Settings)
    (entries : List Entry) : (table.withBaseTypes settings entries).Drafted := by
  induction entries generalizing table with
  | nil => exact drafted
  | cons entry rest ih =>
    simp only [TypeTable.withBaseTypes, List.foldl_cons]
    apply ih
    split
    next =>
      split
      next type found => exact drafted.define (baseType?_fits found)
      next => exact drafted
    next => exact drafted

theorem Drafted.pass (drafted : table.Drafted) (settings : Settings) (index : EntryIndex)
    (owners : List (Nat × Entry)) (entries : List Entry) (last : Bool) :
    (table.pass settings index owners entries last).Drafted := by
  induction entries generalizing table with
  | nil => exact drafted
  | cons entry rest ih =>
    exact ih (drafted.passEntry settings index owners last entry)

theorem Drafted.passes (drafted : table.Drafted) (settings : Settings) (index : EntryIndex)
    (owners : List (Nat × Entry)) (entries : List Entry) (count : Nat) :
    (table.passes settings index owners entries count).Drafted := by
  induction count generalizing table with
  | zero => exact drafted
  | succ count ih => exact ih (drafted.pass settings index owners entries (count == 0))

theorem draft_drafted (settings : Settings) (index : EntryIndex) :
    (draft settings index).Drafted :=
  (drafted_empty.withBaseTypes settings index.entries).passes settings index _ index.entries _

end Steps

end TypeTable

end SourceScope
