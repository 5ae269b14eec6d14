import SourceScope.Proofs.Image.Agreement

set_option autoImplicit false

namespace SourceScope

namespace Elf

theorem relocation?_eq_some_iff {symbols : SymbolTable} {r : RelocationRecord}
    {found : Relocation} :
    r.relocation? symbols = some found ↔ r.type = 2 ∧ ∃ symbol,
      symbols.symbol? r.symbol = some symbol ∧
        ⟨r.offset, symbols.position r.symbol symbol, r.addend⟩ = found := by
  unfold RelocationRecord.relocation?
  split
  next other =>
    have absolute : ¬r.type = 2 := other
    simp [absolute]
  next same =>
    have absolute : r.type = 2 := not_not.1 same
    simp [absolute, Option.map_eq_some_iff]

namespace File

variable (file : File) (placement : Placement)

def records (index : Nat) : List RelocationRecord :=
  relocationsOf file.header.words file.data file.sections file.links index

def relocate (records : List RelocationRecord) (bytes : List UInt8) : List UInt8 :=
  file.toImage.relocated placement
    (records.filterMap (RelocationRecord.relocation? file.symbols)) bytes

/-- A record that is applied to a section of that size: an absolute one, with a symbol that can be
read, whose slot is in the section. -/
structure Applies (size : Nat) (r : RelocationRecord) (symbol : SymbolRecord) : Prop where
  absolute : r.type = 2
  readable : file.symbols.symbol? r.symbol = some symbol
  inside : r.offset + 4 ≤ size

def Apart (size : Nat) (records : List RelocationRecord) : Prop :=
  records.Pairwise fun a b => ∀ first second, file.Applies size a first →
    file.Applies size b second → a.offset + 4 ≤ b.offset ∨ b.offset + 4 ≤ a.offset

structure First (name : String) (index : Nat) (s : Section) : Prop where
  found : sectionAt? file.sections index = some s
  named : s.name = some name.toUTF8.toList
  first : ∀ i < index, ∀ other, sectionAt? file.sections i = some other →
    other.name ≠ some name.toUTF8.toList

structure Relocates (records : List RelocationRecord) (stored presented : List UInt8) : Prop where
  length : presented.length = stored.length
  kept : ∀ n, (∀ r ∈ records, ∀ symbol, file.Applies stored.length r symbol →
    n < r.offset ∨ r.offset + 4 ≤ n) → presented[n]? = stored[n]?
  written : file.Apart stored.length records → ∀ r ∈ records, ∀ symbol,
    file.Applies stored.length r symbol → ∃ old,
      wordAt? file.header.words.order stored r.offset = some old ∧
      wordAt? file.header.words.order presented r.offset =
        some (file.toImage.loadAddress placement (file.symbols.position r.symbol symbol) +
          r.addend.getD old)
  skipped : ∀ before r after, records = before ++ r :: after →
    (∀ symbol, ¬file.Applies stored.length r symbol) →
      file.relocate placement (before ++ after) stored = presented

variable {file} {size : Nat} {r : RelocationRecord} {symbol : SymbolRecord}

theorem Applies.relocation? (applies : file.Applies size r symbol) :
    r.relocation? file.symbols =
      some ⟨r.offset, file.symbols.position r.symbol symbol, r.addend⟩ :=
  relocation?_eq_some_iff.2 ⟨applies.absolute, symbol, applies.readable, rfl⟩

theorem exists_applies {found : Relocation} (kept : r.relocation? file.symbols = some found)
    (inside : found.offset + 4 ≤ size) :
    found.offset = r.offset ∧ ∃ symbol, file.Applies size r symbol := by
  obtain ⟨absolute, symbol, readable, rfl⟩ := relocation?_eq_some_iff.1 kept
  exact ⟨rfl, symbol, absolute, readable, inside⟩

theorem getElem?_relocate (records : List RelocationRecord) {stored : List UInt8} {n : Nat}
    (beside : ∀ r ∈ records, ∀ symbol, file.Applies stored.length r symbol →
      n < r.offset ∨ r.offset + 4 ≤ n) :
    (file.relocate placement records stored)[n]? = stored[n]? := by
  refine Image.getElem?_relocated _ _ _ fun found member inside => ?_
  obtain ⟨r, among, kept⟩ := List.mem_filterMap.1 member
  obtain ⟨same, symbol, applies⟩ := exists_applies kept inside
  rw [same]
  exact beside r among symbol applies

theorem misses_of_apart {others : List RelocationRecord}
    (apart : ∀ other ∈ others, ∀ second, file.Applies size other second →
      r.offset + 4 ≤ other.offset ∨ other.offset + 4 ≤ r.offset) :
    ∀ found ∈ others.filterMap (RelocationRecord.relocation? file.symbols),
      found.Misses size r.offset := by
  intro found member inside
  obtain ⟨other, among, kept⟩ := List.mem_filterMap.1 member
  obtain ⟨same, symbol, applies⟩ := exists_applies kept inside
  rw [same]
  exact apart other among symbol applies

theorem wordAt?_relocate {records : List RelocationRecord} {stored : List UInt8}
    (apart : file.Apart stored.length records) (member : r ∈ records)
    (applies : file.Applies stored.length r symbol) :
    ∃ old, wordAt? file.header.words.order stored r.offset = some old ∧
      wordAt? file.header.words.order (file.relocate placement records stored) r.offset =
        some (file.toImage.loadAddress placement (file.symbols.position r.symbol symbol) +
          r.addend.getD old) := by
  obtain ⟨before, after, rfl⟩ := List.append_of_mem member
  obtain ⟨-, behind, across⟩ := List.pairwise_append.1 apart
  have missedAfter := misses_of_apart fun other among second given =>
    List.rel_of_pairwise_cons behind among symbol second applies given
  have missedBefore := misses_of_apart fun other among second given =>
    (across other among r List.mem_cons_self second symbol given applies).symm
  have slot := (slice?_eq_some_iff stored r.offset 4 _).2 ⟨applies.inside, rfl⟩
  have word : wordAt? file.header.words.order stored r.offset = some _ :=
    Option.map_eq_some_iff.2 ⟨_, slot, rfl⟩
  -- In a section with these relocations only, the record is the last one to write into its slot.
  have fills : file.toImage.Fills
      ⟨none, 0, false, .absent, before.filterMap (RelocationRecord.relocation? file.symbols) ++
        ⟨r.offset, file.symbols.position r.symbol symbol, r.addend⟩ ::
          after.filterMap (RelocationRecord.relocation? file.symbols)⟩ stored r.offset
      ⟨r.offset, file.symbols.position r.symbol symbol, r.addend⟩ _ :=
    ⟨rfl, word, _, _, rfl, missedAfter, fun _ => missedBefore⟩
  refine ⟨_, word, ?_⟩
  rw [relocate, List.filterMap_append, List.filterMap_cons, applies.relocation?]
  exact fills.presented

theorem relocate_without {before after : List RelocationRecord} {stored : List UInt8}
    (idle : ∀ symbol, ¬file.Applies stored.length r symbol) :
    file.relocate placement (before ++ after) stored =
      file.relocate placement (before ++ r :: after) stored := by
  simp only [relocate, List.filterMap_append, Image.relocated_append, List.filterMap_cons]
  cases kept : r.relocation? file.symbols with
  | none => rfl
  | some found =>
    have outside : ¬found.offset + 4 ≤ stored.length := fun inside =>
      let ⟨_, symbol, applies⟩ := exists_applies kept inside
      idle symbol applies
    rw [Image.relocated_cons, apply_outside]
    rwa [Image.length_relocated]

theorem relocates (records : List RelocationRecord) (stored : List UInt8) :
    file.Relocates placement records stored (file.relocate placement records stored) where
  length := Image.length_relocated ..
  kept _ beside := getElem?_relocate placement records beside
  written apart _ member _ applies := wordAt?_relocate placement apart member applies
  skipped _ _ _ split idle := split ▸ relocate_without placement idle

theorem debugSection?_of_first {name : String} {index : Nat} {s : Section}
    (first : file.First name index s) :
    file.toImage.debugSection? name = some (file.sectionOf index s) := by
  obtain ⟨found, named, first⟩ := first
  unfold sectionAt? at found first
  split at found
  · cases found
  next positive =>
  obtain ⟨before, rfl⟩ := Nat.exists_eq_succ_of_ne_zero positive
  obtain ⟨inside, rfl⟩ := List.getElem?_eq_some_iff.1 found
  have isNamed (other : Image.Section) :
      (other.name.any (Naming.plain.spellings name).contains) = true ↔
        other.name = some name.toUTF8.toList := by
    cases other.name <;> simp [Naming.spellings]
  refine List.find?_eq_some_iff_getElem.2 ⟨(isNamed _).2 named, before, ?bound, ?here, ?earlier⟩
  case bound =>
    simp only [toImage, List.length_drop, List.length_mapIdx]
    omega
  case here => simp only [toImage, List.getElem_drop, List.getElem_mapIdx, Nat.add_comm 1]
  case earlier =>
    intro i less
    have other := first (i + 1) (Nat.succ_lt_succ less) _
      ((if_neg (Nat.succ_ne_zero i)).trans (List.getElem?_eq_getElem (by omega)))
    simp only [toImage, List.getElem_drop, List.getElem_mapIdx, Nat.add_comm 1]
    rw [Bool.not_eq_true', Bool.eq_false_iff, ne_eq]
    exact fun named => other ((isNamed _).1 named)

theorem relocations_eq {name : String} (relocatable : file.header.isRelocatable = true)
    (member : name ∈ Image.debugNames) {s : Section} (named : s.name = some name.toUTF8.toList)
    (index : Nat) :
    file.relocations index s =
      (file.records index).filterMap (RelocationRecord.relocation? file.symbols) := by
  have debug : Image.isDebugName name.toUTF8.toList = true :=
    List.any_eq_true.2 ⟨name, member, beq_self_eq_true _⟩
  rw [relocations, relocatable, named, Option.any_some, debug]
  rfl

end File

/-- Every debug section of a relocatable file that is accepted is presented relocated. -/
theorem debug_relocated {width : Width} {data : List UInt8} {placement : Placement}
    {binary : Binary} (format : Format.ofBytes data = .ok (.elf width))
    (accepted : Binary.read placement data = .ok binary)
    (relocatable : binary.isRelocatable = true) :
    ∃ file, File.read width data = .ok file ∧
      ∀ name ∈ Image.debugNames, ∀ index s, file.First name index s → ∃ stored presented,
        (s.storage file.header.words file.data).contents file.data = .ok stored ∧
        binary.section? name = some presented ∧
        file.Relocates placement (file.records index) stored presented := by
  obtain ⟨file, found, -, made⟩ := (binary_read_iff format).1 accepted
  have kind : file.header.isRelocatable = true := (Image.toBinary_kind made).2.symm.trans relocatable
  obtain ⟨debug, atDebug, made⟩ := bind_eq_ok.1 made
  obtain ⟨code, -, made⟩ := bind_eq_ok.1 made
  obtain rfl := Except.ok.inj made
  refine ⟨file, found, fun name member index s first => ?_⟩
  obtain ⟨pairs, own⟩ := exists_of_mapM atDebug member
  obtain ⟨stored, contents, rfl⟩ :=
    Image.debugContents_eq_ok (File.debugSection?_of_first first) own
  refine ⟨stored, _, contents, Image.lookup_debugContents atDebug member own, ?_⟩
  have relocations : (file.sectionOf index s).relocations = _ :=
    File.relocations_eq kind member first.named index
  rw [relocations]
  exact File.relocates placement (file.records index) stored

open Sample in
def withRecords (records : List UInt8) : List UInt8 := elf 1 0 0x10 (word 16) records

open Sample in
/-- Only the first record is applied. The next one is of another type, then the slot ends behind the
section, and then there is no such symbol. -/
def oneApplied : List UInt8 :=
  withRecords (elfRelocation 12 2 2 ++ elfRelocation 8 3 2 ++ elfRelocation 14 2 2 ++
    elfRelocation 0 2 9)

set_option maxRecDepth 20000 in
theorem oneApplied_format : Format.ofBytes oneApplied = .ok (.elf .narrow) := by
  cbv

set_option maxRecDepth 20000 in
theorem oneApplied_read :
    (File.read .narrow oneApplied).toOption.map (fun file =>
      ((sectionAt? file.sections 1).map (·.name), (sectionAt? file.sections 2).map (·.name),
        file.records 2)) =
    some (some (some ".text".toUTF8.toList), some (some ".debug_info".toUTF8.toList),
      [⟨12, 2, 2, none⟩, ⟨8, 3, 2, none⟩, ⟨14, 2, 2, none⟩, ⟨0, 2, 9, none⟩]) := by
  cbv

set_option maxRecDepth 20000 in
theorem oneApplied_presented :
    (Binary.read textMoved oneApplied).toOption.map (fun binary =>
      (binary.isRelocatable, binary.section? ".debug_info")) =
    some (true, some [12, 0, 0, 0, 4, 0, 0, 0, 0, 0, 4, 1, 0x11, 0, 0, 0x20]) := by
  cbv

theorem debug_relocated_oneApplied :
    Format.ofBytes oneApplied = .ok (.elf .narrow) ∧ ∃ binary file s stored,
      Binary.read textMoved oneApplied = .ok binary ∧ binary.isRelocatable = true ∧
      File.read .narrow oneApplied = .ok file ∧ file.First ".debug_info" 2 s ∧
      file.records 2 = [⟨12, 2, 2, none⟩, ⟨8, 3, 2, none⟩, ⟨14, 2, 2, none⟩, ⟨0, 2, 9, none⟩] ∧
      file.Relocates textMoved (file.records 2) stored
        [12, 0, 0, 0, 4, 0, 0, 0, 0, 0, 4, 1, 0x11, 0, 0, 0x20] := by
  obtain ⟨binary, accepted, shown⟩ := exists_ok oneApplied_presented
  obtain ⟨relocatable, presented⟩ := Prod.mk.inj shown
  obtain ⟨file, found, relocated⟩ := debug_relocated oneApplied_format accepted relocatable
  obtain ⟨other, read, same⟩ := exists_ok oneApplied_read
  obtain rfl := Except.ok.inj (found.symm.trans read)
  simp only [Prod.mk.injEq, Option.map_eq_some_iff] at same
  obtain ⟨⟨text, atText, textName⟩, ⟨info, atInfo, infoName⟩, records⟩ := same
  have first : file.First ".debug_info" 2 info := by
    refine ⟨atInfo, infoName, fun i less before given => ?_⟩
    obtain rfl | rfl : i = 0 ∨ i = 1 := by omega
    · cases given
    · obtain rfl := Option.some.inj (atText.symm.trans given)
      rw [textName]
      decide +kernel
  obtain ⟨stored, bytes, -, atName, relocates⟩ := relocated ".debug_info" (by decide) 2 info first
  obtain rfl := Option.some.inj (presented.symm.trans atName)
  exact ⟨oneApplied_format, binary, file, info, stored, accepted, relocatable, found, first, records,
    relocates⟩

end Elf

end SourceScope
