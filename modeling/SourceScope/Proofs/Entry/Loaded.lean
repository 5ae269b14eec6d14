import Mathlib
import SourceScope.Entry.Load
import SourceScope.Proofs.Bytes.Reader
import SourceScope.Proofs.Entry.Outward
import SourceScope.Proofs.Outcome
import SourceScope.Proofs.Sample

set_option autoImplicit false

namespace SourceScope

open Reader

theorem initialLength_takesFront (order : ByteOrder) : TakesFront (initialLength order) := by
  refine .bind (.natural order 4) fun length => ?_
  split
  · exact .pure _
  split
  · exact .bind (.natural order 8) fun _ => .pure _
  · exact .fail _

theorem initialLength_eq_ok {order : ByteOrder} {length offsetSize : Nat}
    {input rest : List UInt8} (read : initialLength order input = .ok ((length, offsetSize), rest)) :
    input.length = (if offsetSize = 8 then 12 else 4) + rest.length := by
  obtain ⟨first, left, readFirst, read⟩ := bind_eq_ok_iff.1 read
  have four := natural_eq_ok readFirst
  split at read
  · obtain ⟨same, rfl⟩ := Prod.mk.inj (Except.ok.inj read)
    obtain ⟨-, rfl⟩ := Prod.mk.inj same
    exact four
  split at read
  · obtain ⟨second, later, readSecond, made⟩ := bind_eq_ok_iff.1 read
    obtain ⟨same, rfl⟩ := Prod.mk.inj (Except.ok.inj made)
    obtain ⟨-, rfl⟩ := Prod.mk.inj same
    have eight := natural_eq_ok readSecond
    rw [if_pos rfl]
    omega
  · cases read

theorem addressSize_leavesTail : LeavesTail addressSize := by
  refine .bind .byte fun size => ?_
  split
  case h_5 => exact .fail _
  all_goals exact .pure _

namespace UnitHeader

theorem typeFields_leavesTail (order : ByteOrder) (offsetSize type : Nat) :
    LeavesTail (typeFields order offsetSize type) := by
  unfold typeFields
  split
  · exact .pure _
  · exact .pure _
  · exact .bind (.discard (.take 8)) fun _ => .discard (.natural order offsetSize)
  · exact .bind (.discard (.take 8)) fun _ => .discard (.natural order offsetSize)
  · exact .discard (.take 8)
  · exact .discard (.take 8)
  · exact .fail _

theorem fields_leavesTail (order : ByteOrder) (offsetSize : Nat) :
    LeavesTail (fields order offsetSize) := by
  refine .bind (.word16 order) fun version => .ite ?_ (.ite ?_ (.fail _))
  · exact .bind (.natural order offsetSize) fun _ => .bind addressSize_leavesTail fun _ => .pure _
  · exact .bind .byte fun type => .bind addressSize_leavesTail fun _ =>
      .bind (.natural order offsetSize) fun _ =>
        .bind (typeFields_leavesTail order offsetSize _) fun _ => .pure _

theorem reader_takesFront (order : ByteOrder) : TakesFront (reader order) := by
  refine .bind (initialLength_takesFront order) fun (length, offsetSize) =>
    .bind (.take length) fun body => ?_
  dsimp only
  split
  · exact .fail _
  · exact .pure _

theorem reader_eq_ok {order : ByteOrder} {header : UnitHeader} {bytes rest : List UInt8}
    (read : reader order bytes = .ok (header, rest)) :
    bytes.length = header.size + rest.length ∧ header.entries.length < header.size := by
  obtain ⟨⟨length, offsetSize⟩, left, readLength, read⟩ := bind_eq_ok_iff.1 read
  obtain ⟨body, later, readBody, made⟩ := bind_eq_ok_iff.1 read
  have before := initialLength_eq_ok readLength
  obtain ⟨rfl, rfl⟩ := take_eq_ok readBody
  dsimp only at made
  cases readFields : fields order offsetSize body with
  | error cause =>
    rw [readFields] at made
    cases made
  | ok found =>
    obtain ⟨⟨version, abbreviations, addressSize⟩, entries⟩ := found
    rw [readFields] at made
    obtain ⟨rfl, rfl⟩ := Prod.mk.inj (Except.ok.inj made)
    have inside := (fields_leavesTail order offsetSize body _ entries readFields).length_le
    rw [List.length_append, ← Nat.add_assoc] at before
    refine ⟨before, Nat.lt_of_le_of_lt inside (Nat.lt_add_of_pos_left ?_)⟩
    split <;> decide

end UnitHeader

theorem bind_unsupportedVersion_iff {A B : Type} {result : Except ReadError A}
    {next : A → Except ModelError B} {version : UInt16} {offset : Nat} :
    (result.mapError .debugData >>= next) = .error (.unsupportedVersion version offset) ↔
      ∃ a, result = .ok a ∧ next a = .error (.unsupportedVersion version offset) := by
  cases result <;> simp [Except.mapError, bind, Except.bind]

theorem mapError_eq_ok_iff {A : Type} {result : Except ReadError A} {a : A} :
    result.mapError ModelError.debugData = .ok a ↔ result = .ok a := by
  cases result <;> simp [Except.mapError]

namespace RawEntry

def Ascend (high : Nat) : (low : Nat) → List RawEntry → Prop
  | low, [] => low ≤ high
  | low, raw :: rest => low ≤ raw.offset ∧ Ascend high (raw.offset + 1) rest

theorem Ascend.of_le {high low lower : Nat} {raws : List RawEntry} (ascend : Ascend high low raws)
    (less : lower ≤ low) : Ascend high lower raws := by
  cases raws with
  | nil => exact Nat.le_trans less ascend
  | cons raw rest => exact ⟨Nat.le_trans less ascend.1, ascend.2⟩

theorem walk_ascend {e : Encoding} {table : List Abbreviation} {stop : Nat} {deeper : Int}
    {bytes : List UInt8} {raws : List RawEntry}
    (walked : walk e table stop deeper bytes = .ok raws) (inside : bytes.length ≤ stop) :
    Ascend stop (stop - bytes.length) raws := by
  fun_induction walk e table stop deeper bytes generalizing raws with
  | case1 =>
    obtain rfl := Except.ok.inj walked
    exact Nat.sub_le _ _
  | case3 deeper bytes nonempty rest read shorter ih =>
    exact (ih walked (by omega)).of_le (by omega)
  | case7 deeper bytes nonempty code rest read shorter entry abbreviation found values left
      readValues shorterStill later walkedLater ih =>
    obtain rfl := Except.ok.inj walked
    -- an entry takes at least the byte of its code
    exact ⟨Nat.le_refl _, (ih walkedLater (by omega)).of_le (by dsimp only; omega)⟩
  | _ => cases walked

end RawEntry

namespace EntryIndex

structure Orderly (index : EntryIndex) (stop : Nat) : Prop where
  descending : index.pushed.Pairwise fun later earlier => earlier.offset < later.offset
  below : ∀ e ∈ index.pushed, e.offset < stop
  registered : ∀ e ∈ index.pushed, (index.unit? e.unit).isSome
  housed : ∀ e ∈ index.pushed, ∀ offset ∈ e.parent,
    ∃ parent ∈ index.pushed, parent.offset = offset ∧ parent.unit = e.unit

structure Within (index : EntryIndex) (owner stop : Nat) : Prop extends index.Orderly stop where
  known : (index.unit? owner).isSome
  opened : ∀ pair ∈ index.open_, ∃ e ∈ index.pushed, e.offset = pair.2 ∧ e.unit = owner

theorem orderly_empty : empty.Orderly 0 where
  descending := .nil
  below := by simp [empty]
  registered := by simp [empty]
  housed := by simp [empty]

theorem Orderly.of_le {index : EntryIndex} {stop later : Nat} (orderly : index.Orderly stop)
    (more : stop ≤ later) : index.Orderly later :=
  { orderly with below := fun e member => Nat.lt_of_lt_of_le (orderly.below e member) more }

theorem Orderly.pushUnit {index : EntryIndex} {stop : Nat} (orderly : index.Orderly stop)
    (unit : CompileUnit) : (index.pushUnit unit).Within unit.offset stop where
  descending := orderly.descending
  below := orderly.below
  registered e member :=
    (isSome_find?_insertUnit unit index.units _).2 (.inr (orderly.registered e member))
  housed := orderly.housed
  known := (isSome_find?_insertUnit unit index.units _).2 (.inl rfl)
  opened _ member := absurd member List.not_mem_nil

theorem Within.pushEntry {index next : EntryIndex} {owner stop : Nat}
    (within : index.Within owner stop) {entry : Entry} (behind : stop ≤ entry.offset)
    (pushed : index.pushEntry owner entry = .ok next) : next.Within owner (entry.offset + 1) := by
  cases found : index.unit? owner with
  | none => simp [EntryIndex.pushEntry, tryPush, found, Except.map] at pushed
  | some unit =>
    simp only [EntryIndex.pushEntry, tryPush, found] at pushed
    obtain rfl := Except.ok.inj pushed
    -- What is still open has been so before.
    have around (deep : Nat × Nat → Bool) : ∀ pair ∈ index.open_.dropWhile deep,
        ∃ e ∈ index.pushed, e.offset = pair.2 ∧ e.unit = owner := fun pair member =>
      within.opened pair ((List.dropWhile_sublist deep).subset member)
    have earlier : ∀ e ∈ index.pushed, e.offset < entry.offset := fun e member =>
      Nat.lt_of_lt_of_le (within.below e member) behind
    refine ⟨⟨.cons earlier within.descending, ?below, ?registered, ?housed⟩, within.known, ?opened⟩
    case below =>
      refine List.forall_mem_cons.2 ⟨Nat.lt_succ_self _, fun e member => ?_⟩
      exact Nat.lt_succ_of_lt (earlier e member)
    case registered => exact List.forall_mem_cons.2 ⟨within.known, within.registered⟩
    case housed =>
      refine List.forall_mem_cons.2 ⟨fun offset given => ?_, fun e member offset given => ?_⟩
      · obtain ⟨pair, nearest, rfl⟩ := Option.map_eq_some_iff.1 given
        obtain ⟨parent, member, same⟩ := around _ pair (List.mem_of_head? nearest)
        exact ⟨parent, List.mem_cons_of_mem _ member, same⟩
      · obtain ⟨parent, above, same⟩ := within.housed e member offset given
        exact ⟨parent, List.mem_cons_of_mem _ above, same⟩
    case opened =>
      refine List.forall_mem_cons.2 ⟨⟨_, List.mem_cons_self, rfl, rfl⟩, fun pair member => ?_⟩
      obtain ⟨e, inside, same⟩ := around _ pair member
      exact ⟨e, List.mem_cons_of_mem _ inside, same⟩

variable {s : DebugSections}

theorem Within.pushRaw {e : Encoding} {start owner low high : Nat} {depth : Int}
    {raws : List RawEntry} {index last : EntryIndex} (within : index.Within owner (start + low))
    (ascend : RawEntry.Ascend high low raws)
    (pushed : pushRaw s e start owner depth raws index = .ok last) :
    last.Orderly (start + high) := by
  induction raws generalizing low depth index with
  | nil =>
    obtain rfl := Except.ok.inj pushed
    exact within.toOrderly.of_le (Nat.add_le_add_left ascend _)
  | cons raw rest ih =>
    unfold EntryIndex.pushRaw at pushed
    dsimp only at pushed
    split at pushed
    case h_1 => cases pushed
    case h_2 next accepted =>
      exact ih (within.pushEntry (Nat.add_le_add_left ascend.1 _) accepted) ascend.2 pushed

theorem pushRaw_error {e : Encoding} {start owner : Nat} {depth : Int} {raws : List RawEntry}
    {index : EntryIndex} {cause : ModelError}
    (failed : pushRaw s e start owner depth raws index = .error cause) :
    ∃ entry, cause = .unknownUnit entry owner := by
  induction raws generalizing depth index with
  | nil => cases failed
  | cons raw rest ih =>
    unfold pushRaw at failed
    dsimp only at failed
    split at failed
    case h_1 rejected =>
      obtain rfl := Except.error.inj failed
      cases found : index.unit? owner with
      | none =>
        simp only [pushEntry, tryPush, found] at rejected
        exact ⟨_, (Except.error.inj rejected).symm⟩
      | some unit => simp [pushEntry, tryPush, found, Except.map] at rejected
    case h_2 => exact ih failed

theorem unitOfRoot_offset {e : Encoding}
    {program : Option (LineProgram.Header × Option (List UInt8) × DebugSections.Bases)}
    {root : Entry} {unit : CompileUnit} (made : unitOfRoot s e program root = .ok unit) :
    unit.offset = root.offset := by
  obtain ⟨ranges, -, made⟩ := bind_eq_ok.1 made
  cases program with
  | none =>
    obtain rfl := Except.ok.inj made
    rfl
  | some given =>
    obtain ⟨files, -, made⟩ := bind_eq_ok.1 made
    obtain ⟨rows, -, made⟩ := bind_eq_ok.1 made
    obtain rfl := Except.ok.inj made
    rfl

def pushSupported (s : DebugSections) (start : Nat) (header : UnitHeader) (index : EntryIndex) :
    Except ModelError EntryIndex := do
  let e := header.encoding
  let table ←
    (Abbreviation.table (s.data ".debug_abbrev") header.abbreviations).mapError .debugData
  let raw ← (RawEntry.first e table header.size 0 header.entries).mapError .debugData
  let program ← (lineProgram? s e raw.values).mapError .debugData
  let root := entryOf s e start raw.deeper raw
  let unit ← (unitOfRoot s e program root).mapError .debugData
  let raws ← (RawEntry.walk e table header.size 0 header.entries).mapError .debugData
  pushRaw s e start root.offset 0 raws (index.pushUnit unit)

theorem pushHeader_eq (start : Nat) (header : UnitHeader) (index : EntryIndex) :
    pushHeader s start header index =
      if header.version ≠ supportedVersion then .error (.unsupportedVersion header.version start)
      else if header.encoding.offsetSize ≠ 4 then
        .error (.unsupported ("64-bit DWARF in unit at offset 0x" ++ Hex.text start))
      else pushSupported s start header index := by
  by_cases version : header.version ≠ supportedVersion
  · rw [pushHeader, if_pos version, if_pos version]
    rfl
  rw [pushHeader, if_neg version, if_neg version]
  by_cases size : header.encoding.offsetSize ≠ 4
  · rw [if_pos size]
    dsimp only
    rw [if_pos size]
    rfl
  · rw [if_neg size]
    dsimp only
    rw [if_neg size]
    rfl

theorem pushHeader_eq_ok {start : Nat} {header : UnitHeader} {index next : EntryIndex}
    (pushed : pushHeader s start header index = .ok next) :
    (header.version = 4 ∧ header.encoding.offsetSize = 4) ∧ ∃ table unit raws,
      RawEntry.walk header.encoding table header.size 0 header.entries = .ok raws ∧
        pushRaw s header.encoding start unit.offset 0 raws (index.pushUnit unit) = .ok next := by
  rw [pushHeader_eq] at pushed
  split at pushed
  · cases pushed
  split at pushed
  · cases pushed
  next version size =>
  obtain ⟨table, -, pushed⟩ := bind_eq_ok.1 pushed
  obtain ⟨raw, -, pushed⟩ := bind_eq_ok.1 pushed
  obtain ⟨program, -, pushed⟩ := bind_eq_ok.1 pushed
  obtain ⟨unit, made, pushed⟩ := bind_eq_ok.1 pushed
  obtain ⟨raws, walked, pushed⟩ := bind_eq_ok.1 pushed
  have same := unitOfRoot_offset (mapError_eq_ok_iff.1 made)
  rw [← same] at pushed
  exact ⟨⟨not_not.1 version, not_not.1 size⟩, table, unit, raws, mapError_eq_ok_iff.1 walked, pushed⟩

theorem pushSupported_ne_unsupportedVersion {start offset : Nat} {header : UnitHeader}
    {index : EntryIndex} {version : UInt16} :
    pushSupported s start header index ≠ .error (.unsupportedVersion version offset) := by
  intro failed
  obtain ⟨table, -, failed⟩ := bind_unsupportedVersion_iff.1 failed
  obtain ⟨raw, -, failed⟩ := bind_unsupportedVersion_iff.1 failed
  obtain ⟨program, -, failed⟩ := bind_unsupportedVersion_iff.1 failed
  obtain ⟨unit, -, failed⟩ := bind_unsupportedVersion_iff.1 failed
  obtain ⟨raws, -, failed⟩ := bind_unsupportedVersion_iff.1 failed
  obtain ⟨entry, same⟩ := pushRaw_error failed
  cases same

theorem pushHeader_unsupportedVersion_iff {start offset : Nat} {header : UnitHeader}
    {index : EntryIndex} {version : UInt16} :
    pushHeader s start header index = .error (.unsupportedVersion version offset) ↔
      header.version = version ∧ version ≠ 4 ∧ start = offset := by
  rw [pushHeader_eq]
  split
  next other =>
    simp only [Except.error.injEq, ModelError.unsupportedVersion.injEq]
    constructor
    · rintro ⟨rfl, rfl⟩
      exact ⟨rfl, other, rfl⟩
    · rintro ⟨rfl, -, rfl⟩
      exact ⟨rfl, rfl⟩
  next same =>
    have supported : ¬(header.version = version ∧ version ≠ 4 ∧ start = offset) := by
      rintro ⟨rfl, other, -⟩
      exact same other
    refine iff_of_false ?_ supported
    split
    · simp
    · exact pushSupported_ne_unsupportedVersion

theorem Orderly.pushHeader {start : Nat} {header : UnitHeader} {index next : EntryIndex}
    (orderly : index.Orderly start) (inside : header.entries.length ≤ header.size)
    (pushed : pushHeader s start header index = .ok next) :
    next.Orderly (start + header.size) := by
  obtain ⟨-, table, unit, raws, walked, pushed⟩ := pushHeader_eq_ok pushed
  have within := orderly.pushUnit unit
  exact within.pushRaw ((RawEntry.walk_ascend walked inside).of_le (Nat.zero_le _)) pushed

/-- The units from `start` on are added one after another, each where the one before it ends. -/
inductive Added (s : DebugSections) :
    Nat → List UInt8 → EntryIndex → List UnitHeader → EntryIndex → Prop where
  | done {start : Nat} {index : EntryIndex} : Added s start [] index [] index
  | unit {start : Nat} {bytes rest : List UInt8} {index next last : EntryIndex}
      {header : UnitHeader} {headers : List UnitHeader} :
    UnitHeader.reader s.order bytes = .ok (header, rest) →
      pushHeader s start header index = .ok next →
        Added s (start + header.size) rest next headers last →
          Added s start bytes index (header :: headers) last

theorem pushUnits_nil (start : Nat) (index : EntryIndex) : pushUnits s start [] index = .ok index := by
  unfold pushUnits
  rfl

theorem pushUnits_of_read {start : Nat} {bytes rest : List UInt8} {header : UnitHeader}
    (read : UnitHeader.reader s.order bytes = .ok (header, rest)) (index : EntryIndex) :
    pushUnits s start bytes index =
      pushHeader s start header index >>= pushUnits s (start + header.size) rest := by
  obtain ⟨length, inside⟩ := UnitHeader.reader_eq_ok read
  have shorter : rest.length < bytes.length := by omega
  have nonempty : bytes.isEmpty = false :=
    List.isEmpty_eq_false_iff.2 (List.length_pos_iff.1 (Nat.zero_lt_of_lt shorter))
  rw [pushUnits, nonempty]
  simp only [Bool.false_eq_true, if_false, read, dif_pos shorter]
  cases pushHeader s start header index <;> rfl

theorem pushUnits_of_unread {start : Nat} {bytes : List UInt8} {cause : ReadError}
    (nonempty : bytes ≠ []) (failed : UnitHeader.reader s.order bytes = .error cause)
    (index : EntryIndex) : pushUnits s start bytes index = .error (.debugData cause) := by
  rw [pushUnits, List.isEmpty_eq_false_iff.2 nonempty]
  simp only [Bool.false_eq_true, if_false, failed]

theorem units_induction {motive : Nat → List UInt8 → EntryIndex → Prop}
    (nil : ∀ start index, motive start [] index)
    (unread : ∀ start bytes index cause, bytes ≠ [] →
      UnitHeader.reader s.order bytes = .error cause → motive start bytes index)
    (read : ∀ start bytes index header rest,
      UnitHeader.reader s.order bytes = .ok (header, rest) →
        (∀ next, motive (start + header.size) rest next) → motive start bytes index)
    (start : Nat) (bytes : List UInt8) (index : EntryIndex) : motive start bytes index := by
  induction size : bytes.length using Nat.strongRecOn generalizing start bytes index with
  | _ size ih =>
    subst size
    by_cases empty : bytes = []
    · subst empty
      exact nil start index
    cases result : UnitHeader.reader s.order bytes with
    | error cause => exact unread start bytes index cause empty result
    | ok found =>
      obtain ⟨header, rest⟩ := found
      obtain ⟨length, inside⟩ := UnitHeader.reader_eq_ok result
      exact read start bytes index header rest result fun next =>
        ih rest.length (by omega) _ rest next rfl

theorem pushUnits_eq_ok_iff {start : Nat} {bytes : List UInt8} {index last : EntryIndex} :
    pushUnits s start bytes index = .ok last ↔ ∃ headers, Added s start bytes index headers last := by
  constructor
  · intro pushed
    induction start, bytes, index using units_induction (s := s) with
    | nil start index =>
      rw [pushUnits_nil] at pushed
      cases pushed
      exact ⟨[], .done⟩
    | unread start bytes index cause nonempty failed =>
      rw [pushUnits_of_unread nonempty failed] at pushed
      cases pushed
    | read start bytes index header rest read ih =>
      rw [pushUnits_of_read read] at pushed
      obtain ⟨next, accepted, pushed⟩ := bind_eq_ok.1 pushed
      obtain ⟨headers, added⟩ := ih next pushed
      exact ⟨header :: headers, .unit read accepted added⟩
  · rintro ⟨headers, added⟩
    induction added with
    | done => exact pushUnits_nil _ _
    | unit read accepted _ ih =>
      rw [pushUnits_of_read read]
      exact bind_eq_ok.2 ⟨_, accepted, ih⟩

theorem Added.orderly {start : Nat} {bytes : List UInt8} {index last : EntryIndex}
    {headers : List UnitHeader} (added : Added s start bytes index headers last)
    (orderly : index.Orderly start) : ∃ stop, last.Orderly stop := by
  induction added with
  | done => exact ⟨_, orderly⟩
  | unit read accepted _ ih =>
    exact ih (orderly.pushHeader (Nat.le_of_lt (UnitHeader.reader_eq_ok read).2) accepted)

theorem Added.pushUnits_append {start : Nat} {bytes : List UInt8} {index last : EntryIndex}
    {headers : List UnitHeader} (added : Added s start bytes index headers last)
    (rest : List UInt8) :
    pushUnits s start (bytes ++ rest) index = pushUnits s (start + bytes.length) rest last := by
  induction added with
  | done => rfl
  | unit read accepted _ ih =>
    obtain ⟨front, rfl, again⟩ := UnitHeader.reader_takesFront _ _ _ _ read
    have length := (UnitHeader.reader_eq_ok read).1
    rw [List.append_assoc, pushUnits_of_read (again _), accepted]
    refine Eq.trans ih ?_
    rw [length, Nat.add_assoc]

/-- The first unit of another version, behind units that are added. -/
structure Refused (s : DebugSections) (start : Nat) (bytes : List UInt8) (index : EntryIndex)
    (version : UInt16) (offset : Nat) : Prop where
  unsupported : version ≠ 4
  met : ∃ front rest before header later, bytes = front ++ rest ∧ start + front.length = offset ∧
    pushUnits s start front index = .ok before ∧
    UnitHeader.reader s.order rest = .ok (header, later) ∧ header.version = version

theorem pushUnits_unsupportedVersion_iff {start offset : Nat} {bytes : List UInt8}
    {index : EntryIndex} {version : UInt16} :
    pushUnits s start bytes index = .error (.unsupportedVersion version offset) ↔
      Refused s start bytes index version offset := by
  constructor
  · intro failed
    induction start, bytes, index using units_induction (s := s) with
    | nil start index =>
      rw [pushUnits_nil] at failed
      cases failed
    | unread start bytes index cause nonempty unread =>
      rw [pushUnits_of_unread nonempty unread] at failed
      cases failed
    | read start bytes index header rest read ih =>
      rw [pushUnits_of_read read] at failed
      rcases bind_eq_error.1 failed with refused | ⟨next, accepted, failed⟩
      · obtain ⟨same, other, rfl⟩ := pushHeader_unsupportedVersion_iff.1 refused
        exact ⟨other, [], bytes, index, header, rest, rfl, rfl, pushUnits_nil _ _, read, same⟩
      · obtain ⟨other, front, later, before, header', left, rfl, rfl, pushed, readLater, same⟩ :=
          ih next failed
        obtain ⟨first, rfl, again⟩ := UnitHeader.reader_takesFront _ _ _ _ read
        have length := (UnitHeader.reader_eq_ok (again [])).1
        rw [List.append_nil, List.length_nil, Nat.add_zero] at length
        refine ⟨other, first ++ front, later, before, header', left,
          (List.append_assoc ..).symm, ?_, ?_, readLater, same⟩
        · rw [List.length_append, length, Nat.add_assoc]
        · rw [pushUnits_of_read (again front), accepted]
          exact pushed
  · rintro ⟨other, front, rest, before, header, later, rfl, rfl, pushed, read, same⟩
    obtain ⟨headers, added⟩ := pushUnits_eq_ok_iff.1 pushed
    rw [added.pushUnits_append, pushUnits_of_read read]
    exact bind_eq_error.2 (.inl (pushHeader_unsupportedVersion_iff.2 ⟨same, other, rfl⟩))

inductive UnitsOf (order : ByteOrder) : List UInt8 → List UnitHeader → Prop where
  | nil : UnitsOf order [] []
  | cons {bytes rest : List UInt8} {header : UnitHeader} {headers : List UnitHeader} :
    UnitHeader.reader order bytes = .ok (header, rest) → UnitsOf order rest headers →
      UnitsOf order bytes (header :: headers)

theorem Added.unitsOf {start : Nat} {bytes : List UInt8} {index last : EntryIndex}
    {headers : List UnitHeader} (added : Added s start bytes index headers last) :
    UnitsOf s.order bytes headers ∧
      ∀ header ∈ headers, header.version = 4 ∧ header.encoding.offsetSize = 4 := by
  induction added with
  | done => exact ⟨.nil, by simp⟩
  | unit read accepted _ ih =>
    exact ⟨.cons read ih.1, List.forall_mem_cons.2 ⟨(pushHeader_eq_ok accepted).1, ih.2⟩⟩

structure Listed (index : EntryIndex) : Prop where
  met : index.entries = index.pushed.reverse
  ascending : index.entries.Pairwise fun a b => a.offset < b.offset
  registered : ∀ e ∈ index.entries, (index.unit? e.unit).isSome
  housed : ∀ e ∈ index.entries, ∀ offset ∈ e.parent,
    ∃ parent, index.entry? offset = some parent ∧ parent.unit = e.unit

theorem find?_of_descending {entries : List Entry} {e : Entry}
    (descending : entries.Pairwise fun later earlier => earlier.offset < later.offset)
    (member : e ∈ entries) : entries.find? (·.offset == e.offset) = some e := by
  induction descending with
  | nil => cases member
  | cons above _ ih =>
    rcases List.mem_cons.1 member with rfl | earlier
    · exact List.find?_cons_of_pos (beq_self_eq_true _)
    · rw [List.find?_cons_of_neg, ih earlier]
      simpa using Nat.ne_of_gt (above e earlier)

theorem Orderly.listed {index : EntryIndex} {stop : Nat} (orderly : index.Orderly stop) :
    index.Listed := by
  have found : ∀ e ∈ index.pushed.reverse, index.entry? e.offset = some e := fun e member =>
    find?_of_descending orderly.descending (List.mem_reverse.1 member)
  have met : index.entries = index.pushed.reverse := by
    rw [EntryIndex.entries, List.filterMap_congr found, List.filterMap_some]
  refine ⟨met, ?ascending, ?registered, ?housed⟩
  case ascending =>
    rw [met]
    exact List.pairwise_reverse.2 orderly.descending
  all_goals intro e listed; rw [met, List.mem_reverse] at listed
  case registered => exact orderly.registered e listed
  case housed =>
    intro offset given
    obtain ⟨parent, member, rfl, same⟩ := orderly.housed e listed offset given
    exact ⟨parent, found parent (List.mem_reverse.2 member), same⟩

theorem load_eq_of_mandatory {s : DebugSections}
    (present : ∀ name ∈ mandatorySections, (s.find? name).isSome) :
    load s = pushUnits s 0 (s.data ".debug_info") .empty := by
  have missing : (mandatorySections.find? fun name => (s.find? name).isNone) = none := by
    refine List.find?_eq_none.2 fun name member => ?_
    rw [Option.isNone_iff_eq_none, ← ne_eq, Option.ne_none_iff_isSome]
    exact present name member
  rw [load, missing]

theorem load_missing {s : DebugSections}
    (absent : ¬∀ name ∈ mandatorySections, (s.find? name).isSome) :
    ∃ name, load s = .error (.missingSection name) := by
  rw [load]
  split
  next name missing => exact ⟨name, rfl⟩
  next missing =>
    refine absurd (fun name member => ?_) absent
    have found := List.find?_eq_none.1 missing name member
    rwa [Option.isNone_iff_eq_none, ← ne_eq, Option.ne_none_iff_isSome] at found

theorem push_of_accepted {index next : EntryIndex} {unit : Nat} {entry : Entry}
    (accepted : index.pushEntry unit entry = .ok next) : index.push (.entry unit entry) = next := by
  change (index.tryPush unit entry).1 = next
  unfold pushEntry at accepted
  generalize index.tryPush unit entry = made at accepted ⊢
  obtain ⟨made, _ | _⟩ := made
  · cases accepted
  · exact Except.ok.inj accepted

theorem exists_pushes_pushRaw {e : Encoding} {start owner : Nat} {depth : Int}
    {raws : List RawEntry} {index last : EntryIndex}
    (pushed : pushRaw s e start owner depth raws index = .ok last) :
    ∃ later : List Push, last = later.foldl push index := by
  induction raws generalizing depth index with
  | nil =>
    obtain rfl := Except.ok.inj pushed
    exact ⟨[], rfl⟩
  | cons raw rest ih =>
    unfold pushRaw at pushed
    dsimp only at pushed
    split at pushed
    case h_1 => cases pushed
    case h_2 next accepted =>
      obtain ⟨later, rfl⟩ := ih pushed
      refine ⟨.entry owner (entryOf s e start (depth + raw.deeper) raw) :: later, ?_⟩
      rw [List.foldl_cons, push_of_accepted accepted]

theorem Added.exists_pushes {start : Nat} {bytes : List UInt8} {index last : EntryIndex}
    {headers : List UnitHeader} (added : Added s start bytes index headers last) :
    ∃ later : List Push, last = later.foldl push index := by
  induction added with
  | done => exact ⟨[], rfl⟩
  | unit read accepted _ ih =>
    obtain ⟨behind, rfl⟩ := ih
    obtain ⟨-, table, unit, raws, -, pushed⟩ := pushHeader_eq_ok accepted
    obtain ⟨entries, rfl⟩ := exists_pushes_pushRaw pushed
    exact ⟨.unit unit :: (entries ++ behind), by simp [EntryIndex.push]⟩

theorem load_ends {index : EntryIndex} (loaded : load s = .ok index) :
    (∃ pushes, index = build pushes ∧ (History.of pushes).Distinct) ∧
      ∀ e ∈ index.entries, ∀ stops, index.Ends stops e.parent ∧ index.Ends stops (some e.offset) := by
  have present : ∀ name ∈ mandatorySections, (s.find? name).isSome := by
    by_contra missing
    obtain ⟨name, missing⟩ := load_missing missing
    rw [missing] at loaded
    cases loaded
  rw [load_eq_of_mandatory present] at loaded
  obtain ⟨headers, added⟩ := pushUnits_eq_ok_iff.1 loaded
  obtain ⟨stop, orderly⟩ := added.orderly orderly_empty
  obtain ⟨pushes, rfl⟩ := added.exists_pushes
  have distinct : (History.of pushes).Distinct := by
    have pushed : (build pushes).pushed = _ := (follows_build pushes).pushed
    rw [History.Distinct, History.accepted, ← pushed, List.map_reverse, List.nodup_reverse]
    exact List.pairwise_map.2 (orderly.descending.imp Nat.ne_of_gt)
  exact ⟨⟨pushes, rfl, distinct⟩, fun e listed stops => (nested_build distinct).ends listed stops⟩

/-- Loading fails over a version exactly at the first unit of another one, and what is loaded is
all units, of the supported version, with their entries in order. -/
theorem load_units (s : DebugSections) :
    (∀ (version : UInt16) (offset : Nat),
      load s = .error (.unsupportedVersion version offset) ↔
        (∀ name ∈ mandatorySections, (s.find? name).isSome) ∧
          Refused s 0 (s.data ".debug_info") .empty version offset) ∧
    ∀ index, load s = .ok index →
      (∃ headers, UnitsOf s.order (s.data ".debug_info") headers ∧
        ∀ header ∈ headers, header.version = 4 ∧ header.encoding.offsetSize = 4) ∧
      index.Listed := by
  by_cases present : ∀ name ∈ mandatorySections, (s.find? name).isSome
  · rw [load_eq_of_mandatory present]
    refine ⟨fun version offset => ?refused, fun index loaded => ?loaded⟩
    case refused =>
      rw [pushUnits_unsupportedVersion_iff]
      exact (and_iff_right present).symm
    case loaded =>
      obtain ⟨headers, added⟩ := pushUnits_eq_ok_iff.1 loaded
      obtain ⟨stop, orderly⟩ := added.orderly orderly_empty
      exact ⟨⟨headers, added.unitsOf⟩, orderly.listed⟩
  · obtain ⟨name, missing⟩ := load_missing present
    rw [missing]
    exact ⟨fun version offset => iff_of_false (by simp) fun given => present given.1,
      fun index loaded => by cases loaded⟩

def namedUnits (lines : Option (List UInt8)) (units : List UInt8) : DebugSections where
  order := .little
  find?
    | ".debug_info" => some units
    | ".debug_abbrev" => some (Sample.unitKind ++ Sample.abbreviation 2 Tag.subprogram false [] ++ [0])
    | ".debug_line" => lines
    | _ => none

open Sample in
def namedUnit : List UInt8 := unit (1 :: cString "m.c" ++ [2, 0])

def newerUnit : List UInt8 := [8, 0, 0, 0, 5, 0, 1, 4, 0, 0, 0, 0]

theorem namedUnits_refused : load (namedUnits (some []) (namedUnit ++ namedUnit ++ newerUnit)) =
    .error (.unsupportedVersion 5 36) := by
  cbv

theorem namedUnits_loaded :
    (load (namedUnits (some []) (namedUnit ++ namedUnit))).toOption.map
      (fun index => index.entries.map fun e => (e.offset, e.unit, e.parent)) =
        some [(11, 11, none), (16, 11, some 11), (29, 29, none), (34, 29, some 29)] := by
  cbv

theorem load_units_named :
    Refused (namedUnits (some []) (namedUnit ++ namedUnit ++ newerUnit)) 0
      (namedUnit ++ namedUnit ++ newerUnit) .empty 5 36 ∧
    ∃ index, load (namedUnits (some []) (namedUnit ++ namedUnit)) = .ok index ∧ index.Listed ∧
      index.entries.map (·.offset) = [11, 16, 29, 34] := by
  refine ⟨(((load_units _).1 5 36).1 namedUnits_refused).2, ?_⟩
  obtain ⟨index, loaded, entries⟩ := exists_ok namedUnits_loaded
  refine ⟨index, loaded, ((load_units _).2 index loaded).2, ?_⟩
  have offsets := congrArg (List.map Prod.fst) entries
  rwa [List.map_map] at offsets

/-- Without a section that every binary must have, no unit is looked at. -/
theorem newerUnit_unread :
    Refused (namedUnits none newerUnit) 0 newerUnit .empty 5 0 ∧
      load (namedUnits none newerUnit) = .error (.missingSection ".debug_line") := by
  have read : ((UnitHeader.reader .little newerUnit).toOption.map fun found =>
      (found.1.version, found.2)) = some (5, []) := by cbv
  obtain ⟨⟨header, later⟩, read, same⟩ := exists_ok read
  obtain ⟨version, rfl⟩ := Prod.mk.inj same
  refine ⟨⟨by decide, [], newerUnit, .empty, header, [], rfl, rfl, ?_, read, version⟩, by cbv⟩
  exact pushUnits_nil 0 .empty

end EntryIndex

end SourceScope
