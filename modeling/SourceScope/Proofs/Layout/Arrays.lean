import SourceScope.Proofs.Layout.Candidates

set_option autoImplicit false

namespace SourceScope

inductive EntryIndex.LeadsTo (index : EntryIndex) : Nat → Entry → Prop where
  | array {e : Entry} (found : index.entry? e.offset = some e) (tag : e.tag = Tag.arrayType) :
    index.LeadsTo e.offset e
  | copy {e array : Entry} {target : Nat} (found : index.entry? e.offset = some e)
    (tag : e.tag = Tag.typedef ∨ e.tag = Tag.constType ∨ e.tag = Tag.volatileType)
    (refers : e.type? = some target) (leads : index.LeadsTo target array) :
    index.LeadsTo e.offset array

namespace TypeTable

def saturated (n : Nat) : Nat := min n 0xffffffff

def saturatedProduct : List UInt32 → Nat
  | [] => 0
  | counts => counts.foldl (fun total n => saturated (total * n.toNat)) 1

theorem toNat_saturatingMul (a b : UInt32) :
    (saturatingMul a b).toNat = saturated (a.toNat * b.toNat) := by
  have size : UInt32.size = 4294967296 := rfl
  unfold saturatingMul saturated
  split
  next fits => rw [UInt32.toNat_mul, Nat.mod_eq_of_lt fits]; omega
  next =>
    have top : UInt32.toNat 0xffffffff = 4294967295 := rfl
    omega

theorem toNat_foldl_saturatingMul (counts : List UInt32) (total : UInt32) :
    (counts.foldl saturatingMul total).toNat =
      counts.foldl (fun total n => saturated (total * n.toNat)) total.toNat := by
  induction counts generalizing total with
  | nil => rfl
  | cons n rest ih => rw [List.foldl_cons, ih, toNat_saturatingMul, List.foldl_cons]

theorem toNat_elementCount (counts : List UInt32) :
    (elementCount counts).toNat = saturatedProduct counts := by
  cases counts with
  | nil => rfl
  | cons n rest => exact toNat_foldl_saturatingMul (n :: rest) 1

section Visits

variable {table later : TypeTable} {settings : Settings} {index : EntryIndex}
  {owners : List (Nat × Entry)} {last : Bool} {entry : Entry} {type : SourceType}

structure Copies (table : TypeTable) (entry : Entry) (type : SourceType) (target : Nat)
    (original : SourceType) : Prop where
  refers : entry.type? = some target
  known : table.at? target = some original
  located : type.offset = entry.offset
  shape : type.shape = original.shape
  size : type.size = original.size

theorem typedefType?_copies (made : typedefType? settings table entry = some type) :
    ∃ target original, Copies table entry type target original := by
  obtain ⟨name, -, made⟩ := Option.bind_eq_some_iff.1 made
  obtain ⟨target, refers, made⟩ := Option.bind_eq_some_iff.1 made
  obtain ⟨original, known, made⟩ := Option.bind_eq_some_iff.1 made
  cases made
  exact ⟨target, original, refers, known, rfl, rfl, rfl⟩

theorem qualifiedType?_copies (made : qualifiedType? table entry = some type) :
    ∃ target original, Copies table entry type target original := by
  obtain ⟨target, refers, made⟩ := Option.bind_eq_some_iff.1 made
  obtain ⟨original, known, made⟩ := Option.bind_eq_some_iff.1 made
  obtain rfl := Option.some.inj made
  refine ⟨target, original, refers, known, ?_, ?_, ?_⟩ <;> split <;> rfl

theorem compositeType?_shape {element : TypeId} {count : UInt32}
    (made : compositeType? settings owners table last entry = some type) :
    type.shape ≠ .array element count := by
  unfold compositeType? at made
  simp only at made
  split at made
  next => cases made
  next =>
    cases made
    nofun

theorem pointerType_shape {element : TypeId} {count : UInt32} :
    (pointerType table entry).1.shape ≠ .array element count := by
  unfold pointerType
  split <;> nofun

theorem entryType?_array {element : TypeId} {count : UInt32}
    (made : entryType? settings index owners last table entry = some type)
    (shape : type.shape = .array element count) :
    (entry.tag = Tag.arrayType ∧ arrayType? index table entry = some type) ∨
      (entry.tag = Tag.typedef ∨ entry.tag = Tag.constType ∨ entry.tag = Tag.volatileType) ∧
        ∃ target original, Copies table entry type target original := by
  unfold entryType? at made
  split at made
  next =>
    obtain rfl := Option.some.inj made
    exact absurd shape pointerType_shape
  split at made
  next tag => exact .inr ⟨.inl tag, typedefType?_copies made⟩
  split at made
  next => exact absurd shape (compositeType?_shape made)
  split at made
  next tag => exact .inl ⟨tag, made⟩
  split at made
  next tag => exact .inr ⟨.inr tag, qualifiedType?_copies made⟩
  next => cases made

structure Sized (index : EntryIndex) (table : TypeTable) (type : SourceType) (element : TypeId)
    (count : UInt32) (array : Entry) : Prop where
  leads : index.LeadsTo type.offset array
  refers : ∃ target, array.type? = some target ∧ table.idAt? target = some element
  counted : count = elementCount (subranges index array)
  measured : ∃ part, table.get? element = some part ∧ type.size = saturatingMul part.size count

def ArraysSized (index : EntryIndex) (table : TypeTable) : Prop :=
  ∀ (id : TypeId) (type : SourceType) (element : TypeId) (count : UInt32),
    table.get? id = some type → type.shape = .array element count →
      ∃ array, Sized index table type element count array

theorem Sized.extended {element : TypeId} {count : UInt32} {array : Entry}
    (sized : Sized index table type element count array) (extended : Extends table later) :
    Sized index later type element count array := by
  obtain ⟨target, refers, known⟩ := sized.refers
  obtain ⟨part, found, size⟩ := sized.measured
  exact ⟨sized.leads, ⟨target, refers, extended.idAt? known⟩, sized.counted,
    part, extended.type element part found, size⟩

theorem arrayType?_sized {element : TypeId} {count : UInt32}
    (listed : index.entry? entry.offset = some entry) (tag : entry.tag = Tag.arrayType)
    (made : arrayType? index table entry = some type) (shape : type.shape = .array element count) :
    Sized index table type element count entry := by
  obtain ⟨target, refers, made⟩ := Option.bind_eq_some_iff.1 made
  obtain ⟨id, known, made⟩ := Option.bind_eq_some_iff.1 made
  obtain ⟨part, found, made⟩ := Option.bind_eq_some_iff.1 made
  cases made
  cases shape
  exact ⟨.array listed tag, ⟨target, refers, known⟩, rfl, part, found, rfl⟩

theorem ArraysSized.passEntry (sized : ArraysSized index table) (drafted : table.Drafted)
    (listed : entry ∈ index.entries) :
    ArraysSized index (passEntry settings index owners last table entry) := by
  intro id type element count found shape
  have atEntry := EntryIndex.entry?_of_mem_entries listed
  suffices ∃ array, Sized index table type element count array by
    obtain ⟨array, here⟩ := this
    exact ⟨array, here.extended (extends_passEntry drafted)⟩
  rcases get?_passEntry drafted found with before | made
  · exact sized id type element count before shape
  rcases entryType?_array made shape with ⟨tag, made⟩ | ⟨tag, target, original, copies⟩
  · exact ⟨entry, arrayType?_sized atEntry tag made shape⟩
  · obtain ⟨number, numbered, stored⟩ := Option.bind_eq_some_iff.1 copies.known
    obtain ⟨array, there⟩ := sized number original element count stored (copies.shape ▸ shape)
    have leads := there.leads
    rw [drafted.located target number original numbered stored] at leads
    exact ⟨array, copies.located ▸ .copy atEntry tag copies.refers leads, there.refers,
      there.counted, copies.size ▸ there.measured⟩

theorem withBaseTypes_base (drafted : table.Drafted) (entries : List Entry)
    (base : ∀ id type, table.get? id = some type → type.shape = .base) :
    ∀ id type, (withBaseTypes settings entries table).get? id = some type → type.shape = .base := by
  induction entries generalizing table with
  | nil => exact base
  | cons entry rest ih =>
    simp only [withBaseTypes, List.foldl_cons]
    split
    next =>
      split
      next type made =>
        refine ih (drafted.define (baseType?_fits made)) fun id other found => ?_
        rw [get?_define drafted] at found
        split at found
        next => cases found; exact (baseType?_leaf made).2
        next => exact base id other found
      next => exact ih drafted base
    next => exact ih drafted base

theorem draft_arraysSized (settings : Settings) (index : EntryIndex) :
    ArraysSized index (draft settings index) := by
  refine draft_induction ?_ fun last table drafted sized entry listed =>
    sized.passEntry drafted listed
  intro id type element count found shape
  have base := withBaseTypes_base drafted_empty index.entries (by simp [get?, empty]) id type found
  simp [base] at shape

end Visits

theorem finalShape_eq_array {table : TypeTable} {shape : Shape} {element : TypeId} {count : UInt32}
    (final : table.finalShape shape = .array element count) : shape = .array element count := by
  cases shape with
  | pointer target => cases target <;> cases final
  | base | array | composite => exact final

/-- The count of an array type is the product of its array entry's dimensions, and its size is that
many times its element's, where neither goes beyond a word. -/
theorem resolve_array {settings : Settings} {index : EntryIndex} {id : TypeId} {type : SourceType}
    {element : TypeId} {count : UInt32} (found : (resolve settings index).get? id = some type)
    (shape : type.shape = .array element count) :
    ∃ array target part, index.LeadsTo type.offset array ∧ array.type? = some target ∧
      (resolve settings index).idAt? target = some element ∧
      (resolve settings index).get? element = some part ∧
      count.toNat = saturatedProduct
        ((index.childrenTagged Tag.subrangeType array.offset).map subrangeCount) ∧
      type.size.toNat = saturated (part.size.toNat * count.toNat) := by
  rw [get?_resolve_eq, Option.map_eq_some_iff] at found
  obtain ⟨drafted, atId, rfl⟩ := found
  obtain ⟨array, sized⟩ := draft_arraysSized settings index id drafted element count atId
    (finalShape_eq_array shape)
  obtain ⟨target, refers, known⟩ := sized.refers
  obtain ⟨part, stored, size⟩ := sized.measured
  refine ⟨array, target, finalType settings index element part, sized.leads, refers, ?_, ?_, ?_, ?_⟩
  · rw [idAt?_resolve, known]
  · rw [get?_resolve_eq, stored, Option.map_some]
  · rw [sized.counted, toNat_elementCount, subranges, EntryIndex.childrenTagged]
  · simp only [finalType, size, toNat_saturatingMul]

def matrix : EntryIndex :=
  indexOf [referring 20 Tag.constType "" 24, referring 24 Tag.typedef "matrix" 32, intEntry,
    referring 32 Tag.arrayType "" 16,
    ⟨36, Tag.subrangeType, 0, 2, none, [(Attr.count, .unsigned 3)]⟩,
    ⟨40, Tag.subrangeType, 0, 2, none, [(Attr.upperBound, .unsigned 1)]⟩]

theorem resolve_array_matrix :
    ∃ type, (resolve Settings.default matrix).get? 3 = some type ∧ type.shape = .array 0 6 ∧
      type.isConst = true ∧ ∃ array target part, matrix.LeadsTo type.offset array ∧
        array.type? = some target ∧ (resolve Settings.default matrix).idAt? target = some 0 ∧
        (resolve Settings.default matrix).get? 0 = some part ∧
        UInt32.toNat 6 = saturatedProduct
          ((matrix.childrenTagged Tag.subrangeType array.offset).map subrangeCount) ∧
        type.size.toNat = saturated (part.size.toNat * UInt32.toNat 6) := by
  have found : (resolve Settings.default matrix).get? 3 = some
      { SourceType.plain "const matrix" 24 (.array 0 6) 20 with isConst := true } := by
    decide +kernel
  exact ⟨_, found, rfl, rfl, resolve_array found rfl⟩

end TypeTable

end SourceScope
