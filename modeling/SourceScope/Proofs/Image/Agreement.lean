import Mathlib
import SourceScope.Image.Read
import SourceScope.Proofs.Image.Slot
import SourceScope.Proofs.Outcome
import SourceScope.Proofs.Sample

set_option autoImplicit false

namespace SourceScope

namespace Image

variable {image : Image} {placement : Placement} {binary : Binary}

/-- The last relocation that writes into a slot. What it writes there stays; without an addend it
adds to the word that the file has in the slot. -/
structure Fills (image : Image) (s : Section) (stored : List UInt8) (offset : Nat) (r : Relocation)
    (old : UInt32) : Prop where
  place : r.offset = offset
  word : wordAt? image.order stored offset = some old
  last : ∃ before after, s.relocations = before ++ r :: after ∧
    (∀ other ∈ after, other.Misses stored.length offset) ∧
    (r.addend = none → ∀ other ∈ before, other.Misses stored.length offset)

/-- What the word of a slot is about: an address as the file has it, in a section, and whether a
relocation moves it with the section. -/
inductive Refers (image : Image) (s : Section) (stored : List UInt8) (offset : Nat) :
    Section → UInt32 → Bool → Prop where
  | held {home : Section} {linked : UInt32}
      (free : ∀ r ∈ s.relocations, r.Misses stored.length offset)
      (word : wordAt? image.order stored offset = some linked) :
      Refers image s stored offset home linked false
  -- A symbol that is in no section is not moved with any.
  | absolute {home : Section} {r : Relocation} {old : UInt32}
      (fills : image.Fills s stored offset r old) (target : image.home? r.target = none) :
      Refers image s stored offset home (UInt32.ofNat r.target.address + r.addend.getD old) false
  | relocated {home : Section} {r : Relocation} {old : UInt32}
      (fills : image.Fills s stored offset r old) (target : image.home? r.target = some home) :
      Refers image s stored offset home (UInt32.ofNat r.target.address + r.addend.getD old) true

theorem Section.loadAddress_eq_self_iff (home : Section) (linked : UInt32) :
    linked = home.loadAddress placement linked.toNat ↔
      home.origin placement = UInt32.ofNat home.address := by
  rw [Section.loadAddress, UInt32.ofNat_toNat]
  constructor <;> grind

theorem Section.loadAddress_add (home : Section) (address : Nat) (addend : UInt32) :
    home.loadAddress placement address + addend =
      home.loadAddress placement (UInt32.ofNat address + addend).toNat := by
  simp only [Section.loadAddress, UInt32.ofNat_toNat]
  grind

theorem wordAt?_isSome {order : ByteOrder} {a b : List UInt8} (length : a.length = b.length)
    {offset : Nat} {word : UInt32} (found : wordAt? order a offset = some word) :
    ∃ other, wordAt? order b offset = some other := by
  obtain ⟨slot, atSlot, -⟩ := Option.map_eq_some_iff.1 found
  have inside := ((slice?_eq_some_iff a offset 4 slot).1 atSlot).1
  exact ⟨_, Option.map_eq_some_iff.2
    ⟨_, (slice?_eq_some_iff b offset 4 _).2 ⟨length ▸ inside, rfl⟩, rfl⟩⟩

theorem Fills.presented {s : Section} {stored : List UInt8} {offset : Nat} {r : Relocation}
    {old : UInt32} (fills : image.Fills s stored offset r old) :
    wordAt? image.order (image.relocated placement s.relocations stored) offset =
      some (image.loadAddress placement r.target + r.addend.getD old) := by
  obtain ⟨before, after, split, later, earlier⟩ := fills.last
  have word := fills.word
  obtain rfl := fills.place
  have length := length_relocated image placement before stored
  obtain ⟨found, atSlot⟩ := wordAt?_isSome length.symm word
  have addend : r.addend.getD found = r.addend.getD old := by
    cases given : r.addend with
    | some addend => rfl
    | none =>
      rw [wordAt?_relocated_of_misses image placement before (earlier given), word] at atSlot
      exact (Option.some.inj atSlot).symm
  rw [split, relocated_append, relocated_cons, wordAt?_relocated_of_misses image placement after,
    wordAt?_apply_self image.order _ atSlot, addend]
  rwa [length_apply, length]

theorem Refers.presented {s home : Section} {stored : List UInt8} {offset : Nat} {linked : UInt32}
    {isMoved : Bool} (refers : image.Refers s stored offset home linked isMoved) :
    wordAt? image.order (image.relocated placement s.relocations stored) offset =
      some (if isMoved then home.loadAddress placement linked.toNat else linked) := by
  cases refers with
  | held free word => simp [wordAt?_relocated_of_misses image placement _ free, word]
  | absolute fills target => simp [fills.presented, Image.loadAddress, target]
  | relocated fills target =>
    simp [fills.presented, Image.loadAddress, target, Section.loadAddress_add]

theorem debugContents_eq_ok {name : String} {s : Section} (found : image.debugSection? name = some s)
    {pairs : List (String × List UInt8)} (made : image.debugContents placement name = .ok pairs) :
    ∃ stored, image.contents s = .ok stored ∧
      pairs = [(name, image.relocated placement s.relocations stored)] := by
  simp only [debugContents, found] at made
  obtain ⟨stored, contents, same⟩ := bind_eq_ok.1 made
  exact ⟨stored, contents, (Except.ok.inj same).symm⟩

theorem debugContents_name {name : String} {pairs : List (String × List UInt8)}
    (made : image.debugContents placement name = .ok pairs) : ∀ pair ∈ pairs, pair.1 = name := by
  cases found : image.debugSection? name with
  | none =>
    simp only [debugContents, found] at made
    obtain rfl := Except.ok.inj made
    simp
  | some s =>
    obtain ⟨stored, -, rfl⟩ := debugContents_eq_ok found made
    simp

theorem lookup_debugContents {names : List String} {made : List (List (String × List UInt8))}
    (accepted : names.mapM (image.debugContents placement) = .ok made) {name : String}
    (member : name ∈ names) {bytes : List UInt8}
    (own : image.debugContents placement name = .ok [(name, bytes)]) :
    made.flatten.lookup name = some bytes := by
  induction names generalizing made with
  | nil => cases member
  | cons first rest ih =>
    obtain ⟨pairs, later, atFirst, atRest, rfl⟩ := mapM_cons_eq_ok.1 accepted
    by_cases same : first = name
    · subst same
      obtain rfl := Except.ok.inj (atFirst.symm.trans own)
      simp
    · have absent : pairs.lookup name = none := by
        refine List.lookup_eq_none_iff.2 fun pair among => ?_
        rw [debugContents_name atFirst pair among]
        simpa using Ne.symm same
      have inRest : name ∈ rest := (List.mem_cons.1 member).resolve_left (Ne.symm same)
      simp [List.lookup_append, absent, ih atRest inRest]

theorem symbolOf?_address {d : Definition} {symbol : Symbol}
    (made : image.symbolOf? placement d = some symbol) :
    ∃ home, image.home? d.position = some home ∧ d.nameText? = some symbol.linkName ∧
      symbol.address = if symbol.isFunction then
        home.loadAddress placement d.position.address &&& 0xfffffffe
      else home.loadAddress placement d.position.address := by
  simp only [symbolOf?, bind, Option.bind_eq_some_iff] at made
  obtain ⟨name, atName, made⟩ := made
  split at made
  · simp at made
  · split at made
    case h_3 => simp at made
    all_goals
      simp only [Option.bind_some, Option.bind_eq_some_iff] at made
      obtain ⟨home, atHome, made⟩ := made
      obtain rfl := Option.some.inj made
      exact ⟨home, atHome, atName, rfl⟩

theorem codeOf_eq_ok {s : Section} (isCode : s.isCode = true) {sections : List CodeSection}
    (made : image.codeOf placement s = .ok sections) :
    ∃ bytes, image.contents s = .ok bytes ∧ (bytes ≠ [] →
      sections = [⟨s.nameText?.getD "", s.origin placement, bytes⟩]) := by
  simp only [codeOf, isCode, Bool.not_true, Bool.false_eq_true, if_false] at made
  obtain ⟨bytes, contents, made⟩ := bind_eq_ok.1 made
  refine ⟨bytes, contents, fun some => ?_⟩
  simp only [List.isEmpty_iff, some, if_false] at made
  exact (Except.ok.inj made).symm

theorem exists_toBinary {debug : List (List (String × List UInt8))} {code : List (List CodeSection)}
    (atDebug : (debugNames.mapM (image.debugContents placement)).toOption = some debug)
    (atCode : (image.sections.mapM (image.codeOf placement)).toOption = some code) :
    ∃ binary, image.toBinary placement = .ok binary :=
  ⟨_, bind_eq_ok.2 ⟨debug, toOption_eq_some_iff.1 atDebug,
    bind_eq_ok.2 ⟨code, toOption_eq_some_iff.1 atCode, rfl⟩⟩⟩

theorem toBinary_kind (made : image.toBinary placement = .ok binary) :
    binary.order = image.order ∧ binary.isRelocatable = image.isRelocatable := by
  obtain ⟨debug, -, made⟩ := bind_eq_ok.1 made
  obtain ⟨code, -, made⟩ := bind_eq_ok.1 made
  obtain rfl := Except.ok.inj made
  exact ⟨rfl, rfl⟩

/-- How a binary shows the addresses of an image. Symbols and code are where the map of addresses has
them, and so is the word of a debug section exactly if it is moved or its section is loaded where it
is linked. -/
structure Shown (image : Image) (placement : Placement) (binary : Binary) : Prop where
  debug : ∀ name ∈ debugNames, ∀ s, image.debugSection? name = some s → ∃ stored presented,
    image.contents s = .ok stored ∧ binary.section? name = some presented ∧
      ∀ offset home linked isMoved, image.Refers s stored offset home linked isMoved →
        ∃ word, wordAt? binary.order presented offset = some word ∧
          (word = home.loadAddress placement linked.toNat ↔
            isMoved = true ∨ home.origin placement = UInt32.ofNat home.address)
  symbols : ∀ symbol ∈ binary.symbols, ∃ d ∈ image.definitions, ∃ home,
    image.home? d.position = some home ∧ d.nameText? = some symbol.linkName ∧
      symbol.address = if symbol.isFunction then
        home.loadAddress placement d.position.address &&& 0xfffffffe
      else home.loadAddress placement d.position.address
  code : ∀ s ∈ image.sections, s.isCode = true → ∃ bytes, image.contents s = .ok bytes ∧
    (bytes ≠ [] → ∃ c ∈ binary.code, c.data = bytes ∧ ∀ n < bytes.length,
      c.origin + UInt32.ofNat n = s.loadAddress placement (s.address + n))

theorem toBinary_shown (made : image.toBinary placement = .ok binary) :
    image.Shown placement binary := by
  obtain ⟨debug, atDebug, made⟩ := bind_eq_ok.1 made
  obtain ⟨code, atCode, made⟩ := bind_eq_ok.1 made
  obtain rfl := Except.ok.inj made
  constructor
  case debug =>
    intro name member s found
    obtain ⟨pairs, own⟩ := exists_of_mapM atDebug member
    obtain ⟨stored, contents, rfl⟩ := debugContents_eq_ok found own
    refine ⟨stored, _, contents, lookup_debugContents atDebug member own, ?_⟩
    intro offset home linked isMoved refers
    refine ⟨_, refers.presented, ?_⟩
    cases isMoved with
    | true => simp
    | false => simpa using home.loadAddress_eq_self_iff linked
  case symbols =>
    intro symbol member
    obtain ⟨d, among, shown⟩ := List.mem_filterMap.1 member
    exact ⟨d, among, symbolOf?_address shown⟩
  case code =>
    intro s member isCode
    obtain ⟨sections, own⟩ := exists_of_mapM atCode member
    obtain ⟨bytes, contents, placed⟩ := codeOf_eq_ok isCode own
    refine ⟨bytes, contents, fun some => ?_⟩
    have among : sections ∈ code := (mem_mapM_iff atCode sections).2 ⟨s, member, own⟩
    refine ⟨⟨s.nameText?.getD "", s.origin placement, bytes⟩,
      List.mem_flatten.2 ⟨sections, among, by simp [placed some]⟩, rfl, ?_⟩
    intro n _
    simp only [Section.loadAddress, UInt32.ofNat_add]
    grind

end Image

namespace Elf

theorem isRelocatable_of_mem {file : File} {s : Image.Section} (member : s ∈ file.toImage.sections)
    {r : Relocation} (among : r ∈ s.relocations) : file.header.isRelocatable = true := by
  obtain ⟨index, bound, rfl⟩ := List.mem_mapIdx.1 (List.mem_of_mem_drop member)
  by_cases relocatable : file.header.isRelocatable = true
  · exact relocatable
  · simp [File.sectionOf, File.relocations, relocatable] at among

theorem binary_read_iff {width : Width} {data : List UInt8} {placement : Placement}
    {binary : Binary} (format : Format.ofBytes data = .ok (.elf width)) :
    Binary.read placement data = .ok binary ↔ ∃ file, File.read width data = .ok file ∧
      file.header.width = .narrow ∧ file.toImage.toBinary placement = .ok binary := by
  simp only [Binary.read, Image.read, format, Image.ofFormat, read]
  cases found : File.read width data with
  | error cause => simp [Except.map, Except.mapError]
  | ok file =>
    have same : file.toImage.width = file.header.width := rfl
    simp only [Except.map, Except.mapError, Except.ok.injEq, exists_eq_left', same]
    cases file.header.width with
    | wide => simp
    | narrow => cases file.toImage.toBinary placement <;> simp

/-- An accepted file shows its symbols and code where they are loaded. A debug word is shown there
only if a relocation moves it, which takes a relocatable file, or if its section is not moved. -/
theorem addresses_shown {width : Width} {data : List UInt8} {placement : Placement} {binary : Binary}
    (format : Format.ofBytes data = .ok (.elf width))
    (accepted : Binary.read placement data = .ok binary) :
    ∃ file, File.read width data = .ok file ∧ binary.isRelocatable = file.header.isRelocatable ∧
      file.toImage.Shown placement binary ∧
      ∀ name s, file.toImage.debugSection? name = some s →
        ∀ stored offset home linked, file.toImage.Refers s stored offset home linked true →
          binary.isRelocatable = true := by
  obtain ⟨file, found, -, made⟩ := (binary_read_iff format).1 accepted
  have kind : binary.isRelocatable = file.header.isRelocatable := (Image.toBinary_kind made).2
  refine ⟨file, found, kind, Image.toBinary_shown made, ?_⟩
  intro name s atName stored offset home linked refers
  rw [kind]
  cases refers with
  | @relocated r old fills =>
    obtain ⟨before, after, split, -⟩ := fills.last
    have among : r ∈ s.relocations := by simp [split]
    exact isRelocatable_of_mem (List.mem_of_find?_eq_some atName) among

open Sample in
def sample (type base : UInt8) : List UInt8 :=
  -- the slot is relocated against the symbol of `.text`, which is followed by `main`
  elf type base 0x12 [0, base, 0, 0] (elfRelocation 12 2 1)

def textMoved : Placement := .ofOrigins [(".text", 0x20000000)]

def textOf (base : Nat) : Image.Section :=
  ⟨some ".text".toUTF8.toList, base, true, .place 52 4 .outsideFile, []⟩

theorem textOf_origin (base : Nat) : (textOf base).origin textMoved = 0x20000000 := by
  cbv

def infoOf (relocations : List Relocation) : Image.Section :=
  ⟨some ".debug_info".toUTF8.toList, 0, false, .place 56 16 .outsideFile, relocations⟩

def infoBytes (base : UInt8) : List UInt8 := [12, 0, 0, 0, 4, 0, 0, 0, 0, 0, 4, 1, 0, base, 0, 0]

-- What there is to see of a file: its two sections, the bytes of one, and whether it is accepted.
structure Reading where
  width : Width
  order : ByteOrder
  text : Option Image.Section
  info : Option Image.Section
  stored : Option (List UInt8)
  accepted : Bool × Bool

def File.reading (file : File) : Reading where
  width := file.header.width
  order := file.toImage.order
  text := file.toImage.section? 1
  info := file.toImage.debugSection? ".debug_info"
  stored := (file.toImage.debugSection? ".debug_info").bind fun s =>
    (file.toImage.contents s).toOption
  accepted := ((Image.debugNames.mapM (file.toImage.debugContents textMoved)).toOption.isSome,
    (file.toImage.sections.mapM (file.toImage.codeOf textMoved)).toOption.isSome)

set_option maxRecDepth 20000 in
theorem relocatable_reading :
    (File.read .narrow (sample 1 0)).toOption.map File.reading =
      some ⟨.narrow, .little, some (textOf 0), some (infoOf [⟨12, ⟨0, some 1⟩, none⟩]),
        some (infoBytes 0), true, true⟩ := by
  cbv

set_option maxRecDepth 20000 in
theorem linked_reading :
    (File.read .narrow (sample 2 0x80)).toOption.map File.reading =
      some ⟨.narrow, .little, some (textOf 0x8000), some (infoOf []), some (infoBytes 0x80), true,
        true⟩ := by
  cbv

set_option maxRecDepth 20000 in
theorem sample_format (type base : UInt8) :
    Format.ofBytes (sample type base) = .ok (.elf .narrow) := by
  cbv

theorem exists_read {type base : UInt8} {reading : Reading}
    (read : (File.read .narrow (sample type base)).toOption.map File.reading = some reading)
    (narrow : reading.width = .narrow) (accepted : reading.accepted = (true, true)) :
    ∃ file binary, File.read .narrow (sample type base) = .ok file ∧ file.reading = reading ∧
      Binary.read textMoved (sample type base) = .ok binary := by
  obtain ⟨file, found, rfl⟩ := exists_ok read
  obtain ⟨debug, atDebug⟩ := Option.isSome_iff_exists.1 (Prod.mk.inj accepted).1
  obtain ⟨code, atCode⟩ := Option.isSome_iff_exists.1 (Prod.mk.inj accepted).2
  obtain ⟨binary, made⟩ := Image.exists_toBinary atDebug atCode
  exact ⟨file, binary, found, rfl, (binary_read_iff (sample_format type base)).2
    ⟨file, found, narrow, made⟩⟩

theorem addresses_shown_relocatable :
    Format.ofBytes (sample 1 0) = .ok (.elf .narrow) ∧ ∃ binary file,
      Binary.read textMoved (sample 1 0) = .ok binary ∧ File.read .narrow (sample 1 0) = .ok file ∧
      binary.isRelocatable = file.header.isRelocatable ∧ file.toImage.Shown textMoved binary ∧
      (∀ name s, file.toImage.debugSection? name = some s →
        ∀ stored offset home linked, file.toImage.Refers s stored offset home linked true →
          binary.isRelocatable = true) ∧
      ∃ s stored, file.toImage.debugSection? ".debug_info" = some s ∧
        file.toImage.contents s = .ok stored ∧ file.toImage.Refers s stored 12 (textOf 0) 0 true := by
  obtain ⟨other, binary, found, reading, accepted⟩ := exists_read relocatable_reading rfl rfl
  obtain ⟨file, read, result⟩ := addresses_shown (sample_format 1 0) accepted
  obtain rfl := Except.ok.inj (found.symm.trans read)
  simp only [File.reading, Reading.mk.injEq] at reading
  obtain ⟨-, order, text, info, stored, -⟩ := reading
  rw [info, Option.bind_some, toOption_eq_some_iff] at stored
  have word : wordAt? other.toImage.order (infoBytes 0) 12 = some 0 := by
    rw [order]
    rfl
  have fills : other.toImage.Fills (infoOf [⟨12, ⟨0, some 1⟩, none⟩]) (infoBytes 0) 12
      ⟨12, ⟨0, some 1⟩, none⟩ 0 :=
    ⟨rfl, word, [], [], rfl, by simp, by simp⟩
  exact ⟨sample_format 1 0, binary, other, accepted, found, result.1, result.2.1, result.2.2, _, _,
    info, stored, Image.Refers.relocated fills text⟩

/-- In the linked sample the nops are loaded elsewhere, and the word that says where they are is left
as it was. -/
theorem linked_left :
    ∃ binary file s stored presented word, Binary.read textMoved (sample 2 0x80) = .ok binary ∧
      File.read .narrow (sample 2 0x80) = .ok file ∧
      textOf 0x8000 ∈ file.toImage.sections ∧ (textOf 0x8000).isCode = true ∧
      file.toImage.debugSection? ".debug_info" = some s ∧ file.toImage.contents s = .ok stored ∧
      wordAt? binary.order stored 12 = some 0x8000 ∧
      binary.section? ".debug_info" = some presented ∧ wordAt? binary.order presented 12 = some word ∧
      word ≠ (textOf 0x8000).loadAddress textMoved 0x8000 := by
  obtain ⟨file, binary, read, reading, accepted⟩ := exists_read linked_reading rfl rfl
  obtain ⟨other, found, -, made⟩ := (binary_read_iff (sample_format 2 0x80)).1 accepted
  obtain rfl := Except.ok.inj (read.symm.trans found)
  simp only [File.reading, Reading.mk.injEq] at reading
  obtain ⟨-, order, text, info, stored, -⟩ := reading
  rw [info, Option.bind_some, toOption_eq_some_iff] at stored
  have held : wordAt? file.toImage.order (infoBytes 0x80) 12 = some 0x8000 := by
    rw [order]
    rfl
  obtain ⟨bytes, presented, contents, shown, words⟩ :=
    (Image.toBinary_shown made).debug ".debug_info" (by decide) _ info
  obtain rfl := Except.ok.inj (stored.symm.trans contents)
  obtain ⟨word, atSlot, agrees⟩ := words 12 (textOf 0x8000) 0x8000 false
    (Image.Refers.held (by intro r member; cases member) held)
  have among : textOf 0x8000 ∈ file.toImage.sections := by
    simp only [Image.section?] at text
    exact List.mem_of_getElem? text
  refine ⟨binary, file, _, _, presented, word, accepted, read, among, rfl, info, stored, ?_, shown,
    atSlot, fun same => ?_⟩
  · rwa [(Image.toBinary_kind made).1]
  · -- it would have to be loaded where it is linked
    rcases agrees.1 same with relocated | unmoved
    · cases relocated
    · rw [textOf_origin] at unmoved
      exact absurd unmoved (by decide)

end Elf

end SourceScope
