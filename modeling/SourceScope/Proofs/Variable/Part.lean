import Mathlib
import SourceScope.Proofs.Variable.Located

set_option autoImplicit false

namespace SourceScope

namespace Location

def wordByte (word : UInt32) (index : Nat) : UInt8 :=
  UInt8.ofNat (word.toNat / ByteOrder.capacity index)

def Place.byteAt? (memory : UInt32 → Option UInt8) : Place → (index : Nat) → Option UInt8
  | .address base, index => memory (base + UInt32.ofNat index)
  | .value word, index => if index < 4 then some (wordByte word index) else none
  | .empty, _ => none

/-- A byte counted from the start of a place: memory goes on, and a word goes on with zeros. -/
def Place.byteOn? (memory : UInt32 → Option UInt8) : Place → (index : Nat) → Option UInt8
  | .address base, index => memory (base + UInt32.ofNat index)
  | .value word, index => some (wordByte word index)
  | .empty, _ => none

def pieceOver? : List Piece → (offset : Nat) → Option (Place × Nat)
  | [], _ => none
  | piece :: rest, offset =>
    if offset < piece.size.toNat then some (piece.place, offset)
    else pieceOver? rest (offset - piece.size.toNat)

def bytesFrom (byte : Nat → Option UInt8) (first : Nat) : (count : Nat) → Option (List UInt8)
  | 0 => some []
  | count + 1 => do return (← byte first) :: (← bytesFrom byte (first + 1) count)

namespace Result

def placeOver? : Result → (offset : Nat) → Option (Place × Nat)
  | .address base, offset => some (.address base, offset)
  | .value word, offset => some (.value word, offset)
  | .pieces all, offset => pieceOver? all offset

def byteAt? (memory : UInt32 → Option UInt8) (whole : Result) (offset : Nat) : Option UInt8 :=
  (whole.placeOver? offset).bind fun (place, index) => place.byteAt? memory index

def bytes? (memory : UInt32 → Option UInt8) (whole : Result) (offset count : Nat) :
    Option (List UInt8) :=
  bytesFrom (whole.byteAt? memory) offset count

/-- The bytes counted on from an offset in the place that holds it. -/
def bytesOn? (memory : UInt32 → Option UInt8) (whole : Result) (offset count : Nat) :
    Option (List UInt8) :=
  (whole.placeOver? offset).bind fun (place, index) => bytesFrom (place.byteOn? memory) index count

/-- No piece ends past the last offset. -/
def Unwrapped : Result → Prop
  | .pieces all => (all.map (·.size.toNat)).sum < UInt32.size
  | _ => True

def Undivided (whole : Result) (offset count : Nat) : Prop :=
  ∀ i < count, whole.placeOver? (offset + i) =
    (whole.placeOver? offset).map fun (place, index) => (place, index + i)

end Result

theorem bytesFrom_succ {byte : Nat → Option UInt8} {first count : Nat} {bytes : List UInt8} :
    bytesFrom byte first (count + 1) = some bytes ↔ ∃ b later, byte first = some b ∧
      bytesFrom byte (first + 1) count = some later ∧ bytes = b :: later := by
  rw [bytesFrom]
  simp [Option.bind_eq_some_iff, eq_comm (a := bytes)]

theorem bytesFrom_mono {byte other : Nat → Option UInt8} {first second count : Nat}
    {bytes : List UInt8}
    (agree : ∀ i < count, ∀ b, byte (first + i) = some b → other (second + i) = some b)
    (all : bytesFrom byte first count = some bytes) :
    bytesFrom other second count = some bytes := by
  induction count generalizing first second bytes with
  | zero => exact all
  | succ count ih =>
    obtain ⟨b, later, head, tail, rfl⟩ := bytesFrom_succ.1 all
    refine bytesFrom_succ.2 ⟨b, later, agree 0 (by omega) b head, ih ?_ tail, rfl⟩
    intro i small b found
    have next := agree (i + 1) (by omega) b
    rw [Nat.add_right_comm, Nat.add_assoc] at found ⊢
    exact next found

theorem bytesFrom_length {byte : Nat → Option UInt8} {first count : Nat} {bytes : List UInt8}
    (all : bytesFrom byte first count = some bytes) : bytes.length = count := by
  induction count generalizing first bytes with
  | zero =>
    cases all
    rfl
  | succ count ih =>
    obtain ⟨b, later, -, tail, rfl⟩ := bytesFrom_succ.1 all
    rw [List.length_cons, ih tail]

theorem byteOn?_of_byteAt? {memory : UInt32 → Option UInt8} {place : Place} {index : Nat}
    {b : UInt8}
    (found : place.byteAt? memory index = some b) : place.byteOn? memory index = some b := by
  cases place with
  | address | empty => exact found
  | value word =>
    rw [Place.byteAt?] at found
    split at found
    · exact found
    · cases found

theorem Result.bytesOn?_of_undivided {memory : UInt32 → Option UInt8} {whole : Result}
    {offset count : Nat} {bytes : List UInt8} (some_ : 0 < count)
    (undivided : whole.Undivided offset count)
    (all : whole.bytes? memory offset count = some bytes) :
    whole.bytesOn? memory offset count = some bytes := by
  unfold Result.bytes? at all
  unfold Result.bytesOn?
  cases covering : whole.placeOver? offset with
  | none =>
    obtain ⟨count, rfl⟩ : ∃ less, count = less + 1 := ⟨count - 1, by omega⟩
    obtain ⟨b, later, head, -, -⟩ := bytesFrom_succ.1 all
    rw [Result.byteAt?, covering] at head
    cases head
  | some held =>
    obtain ⟨place, index⟩ := held
    refine bytesFrom_mono (fun i small b found => ?_) all
    rw [Result.byteAt?, undivided i small, covering] at found
    exact byteOn?_of_byteAt? found

theorem bytesFrom_word (memory : UInt32 → Option UInt8) (word : UInt32) (index count : Nat) :
    bytesFrom ((Place.value word).byteOn? memory) index count =
      some (ByteOrder.digits count (word.toNat / ByteOrder.capacity index)) := by
  induction count generalizing index with
  | zero => rfl
  | succ count ih =>
    refine bytesFrom_succ.2 ⟨_, _, rfl, ih (index + 1), ?_⟩
    rw [ByteOrder.digits, Nat.div_div_eq_div_mul, Nat.mul_comm]
    rfl

theorem bytesFrom_digits {byte : Nat → Option UInt8} {first count : Nat} {bytes : List UInt8}
    (found : ∀ (i : Nat) (inside : i < bytes.length), byte (first + i) = some bytes[i])
    (enough : count ≤ bytes.length) :
    bytesFrom byte first count = some (ByteOrder.digits count (ByteOrder.leastFirst bytes)) := by
  induction bytes generalizing first count with
  | nil =>
    obtain rfl : count = 0 := Nat.le_zero.1 enough
    rfl
  | cons b rest ih =>
    cases count with
    | zero => rfl
    | succ count =>
      have head := found 0 (by simp)
      have tail : bytesFrom byte (first + 1) count =
          some (ByteOrder.digits count (ByteOrder.leastFirst rest)) := by
        refine ih (fun i inside => ?_) (Nat.le_of_succ_le_succ enough)
        have next := found (i + 1) (Nat.succ_lt_succ inside)
        rwa [← Nat.add_assoc, Nat.add_right_comm, List.getElem_cons_succ] at next
      exact bytesFrom_succ.2 ⟨b, _, head, tail, ByteOrder.digits_cons count b rest⟩

theorem peek_bytes {state : Snapshot} {address word : UInt32}
    (read : state.peek address = some word) :
    ∃ bytes : List UInt8, bytes.length = 4 ∧ word.toNat = ByteOrder.leastFirst bytes ∧
      ∀ (i : Nat) (inside : i < bytes.length),
        state.byteAt (address + UInt32.ofNat i) = some bytes[i] := by
  unfold Snapshot.peek at read
  simp only [bind, pure, Option.bind_eq_some_iff, Option.some.injEq] at read
  obtain ⟨a, first, b, second, c, third, d, fourth, rfl⟩ := read
  refine ⟨[a, b, c, d], rfl, ?_, ?_⟩
  · have small : ByteOrder.leastFirst [a, b, c, d] < UInt32.size :=
      ByteOrder.leastFirst_lt [a, b, c, d]
    exact UInt32.toNat_ofNat_of_lt' small
  · intro i inside
    match i, inside with
    | 0, _ => simpa using first
    | 1, _ => exact second
    | 2, _ => exact third
    | 3, _ => exact fourth

theorem bytesFrom_memory {state : Snapshot} {base word : UInt32} {index count : Nat}
    (read : state.peek (base + UInt32.ofNat index) = some word) (small : count ≤ 4) :
    bytesFrom ((Place.address base).byteOn? state.byteAt) index count =
      some (ByteOrder.digits count word.toNat) := by
  obtain ⟨bytes, length, combined, found⟩ := peek_bytes read
  rw [combined]
  refine bytesFrom_digits (fun i inside => ?_) (by omega)
  rw [← found i inside, Place.byteOn?, UInt32.ofNat_add, UInt32.add_assoc]

theorem lowBytes_toNat {size : Nat} (sized : size = 1 ∨ size = 2 ∨ size = 4) (word : UInt32) :
    (lowBytes size word).toNat = word.toNat % ByteOrder.capacity size := by
  obtain rfl | rfl | rfl := sized
  · exact Nat.and_two_pow_sub_one_eq_mod word.toNat 8
  · exact Nat.and_two_pow_sub_one_eq_mod word.toNat 16
  · exact (Nat.mod_eq_of_lt word.toNat_lt).symm

theorem capacity_eq_two_pow (count : Nat) : ByteOrder.capacity count = 2 ^ (8 * count) := by
  induction count with
  | zero => rfl
  | succ count ih => rw [ByteOrder.capacity, ih, Nat.mul_succ, Nat.pow_add, Nat.mul_comm]

theorem dropBytes_toNat (word : UInt32) (index : Nat) :
    (dropBytes word index).toNat = word.toNat / ByteOrder.capacity index := by
  unfold dropBytes
  split
  next small =>
    have bits : (UInt32.ofNat (8 * index)).toNat % 32 = 8 * index := by
      rw [UInt32.toNat_ofNat']
      omega
    rw [UInt32.toNat_shiftRight, bits, Nat.shiftRight_eq_div_pow, capacity_eq_two_pow]
  next large =>
    have beyond : word.toNat < ByteOrder.capacity index := by
      rw [capacity_eq_two_pow]
      exact Nat.lt_of_lt_of_le word.toNat_lt (Nat.pow_le_pow_right (by decide) (by omega))
    exact (Nat.div_eq_of_lt beyond).symm

def Place.partAt? : Place → (index : Nat) → Option Result
  | .address base, index => some (.address (base + UInt32.ofNat index))
  | .value word, index => some (.value (dropBytes word index))
  | .empty, _ => none

theorem pieceAt?_eq {offset start : UInt32} {inside : Nat} {pieces : List Piece}
    (counted : offset.toNat = start.toNat + inside)
    (unwrapped : start.toNat + (pieces.map (·.size.toNat)).sum < UInt32.size) :
    pieceAt? offset start pieces =
      (pieceOver? pieces inside).bind fun (place, index) => place.partAt? index := by
  induction pieces generalizing start inside with
  | nil => rfl
  | cons piece rest ih =>
    rw [List.map_cons, List.sum_cons] at unwrapped
    have stop : (start + piece.size).toNat = start.toNat + piece.size.toNat := by
      rw [UInt32.toNat_add]
      exact Nat.mod_eq_of_lt (Nat.lt_of_le_of_lt (by omega) unwrapped)
    rw [pieceAt?, pieceOver?]
    by_cases covers : inside < piece.size.toNat
    · have reached : offset < start + piece.size := by
        rw [UInt32.lt_iff_toNat_lt, stop]
        omega
      have distance : (offset - start).toNat = inside := by
        rw [UInt32.toNat_sub_of_le _ _ (UInt32.le_iff_toNat_le.2 (by omega))]
        omega
      rw [if_pos reached, if_pos covers, ← distance]
      cases piece.place <;> simp [Place.partAt?]
    · have beyond : ¬offset < start + piece.size := by
        rw [UInt32.lt_iff_toNat_lt, stop]
        omega
      rw [if_neg beyond, if_neg covers]
      exact ih (by omega) (by omega)

theorem locatePart_offset {env : Environment} {offset : UInt32} {whole found : Result}
    (unwrapped : whole.Unwrapped) (located : Variable.locatePart env (.offset offset) whole = .ok found) :
    ((whole.placeOver? offset.toNat).bind fun (place, index) => place.partAt? index) =
      some found := by
  cases whole with
  | address base =>
    cases located
    simp [Result.placeOver?, Place.partAt?]
  | value word =>
    cases located
    rfl
  | pieces all =>
    simp only [Variable.locatePart] at located
    have counted : offset.toNat = (0 : UInt32).toNat + offset.toNat := (Nat.zero_add _).symm
    have unwrapped : (0 : UInt32).toNat + (all.map (·.size.toNat)).sum < UInt32.size := by
      simpa [Result.Unwrapped] using unwrapped
    rw [Result.placeOver?, ← pieceAt?_eq counted unwrapped]
    split at located
    next held =>
      cases located
      exact held
    · cases located

theorem bytesOn?_of_partAt? {state : Snapshot} {place : Place} {index size : Nat} {found : Result}
    {word : UInt32} (part : place.partAt? index = some found)
    (read : found.value? state.peek = some word) (small : size ≤ 4) :
    bytesFrom (place.byteOn? state.byteAt) index size =
      some (ByteOrder.digits size word.toNat) := by
  cases place with
  | address base =>
    cases part
    exact bytesFrom_memory read small
  | value whole =>
    cases part
    cases read
    rw [bytesFrom_word, dropBytes_toNat]
  | empty => cases part

end Location

namespace Variable

open Location

variable {state : Snapshot} {env : Environment} {whole : Result} {part : Variable}
  {offset value : UInt32}

theorem value?_updateIn (placed : part.place = .offset offset) (frozen : env.state = state.view)
    (valued : (part.updateIn env (some (.ok whole))).value? = some value) :
    ∃ found word, locatePart env (.offset offset) whole = .ok found ∧
      found.value? state.peek = some word ∧ value = lowBytes part.size.toNat word := by
  have valued : (part.updateIn env ((some whole).map .ok)).value? = some value := valued
  obtain ⟨found, word, located, read, same⟩ := locate_of_value? valued
  rw [placed] at located
  rw [frozen] at read
  exact ⟨found, word, located, read, same⟩

theorem bytesOn?_updateIn (unwrapped : whole.Unwrapped) (frozen : env.state = state.view)
    (placed : part.place = .offset offset)
    (sized : part.size.toNat = 1 ∨ part.size.toNat = 2 ∨ part.size.toNat = 4)
    (valued : (part.updateIn env (some (.ok whole))).value? = some value) :
    whole.bytesOn? state.byteAt offset.toNat part.size.toNat =
      some (ByteOrder.digits part.size.toNat value.toNat) := by
  obtain ⟨found, word, located, read, rfl⟩ := value?_updateIn placed frozen valued
  rw [lowBytes_toNat sized, ByteOrder.digits_mod]
  obtain ⟨held, covering, begins⟩ := Option.bind_eq_some_iff.1 (locatePart_offset unwrapped located)
  rw [Result.bytesOn?, covering]
  exact bytesOn?_of_partAt? begins read (by omega)

theorem value_lt (frozen : env.state = state.view) (placed : part.place = .offset offset)
    (sized : part.size.toNat = 1 ∨ part.size.toNat = 2 ∨ part.size.toNat = 4)
    (valued : (part.updateIn env (some (.ok whole))).value? = some value) :
    value.toNat % ByteOrder.capacity part.size.toNat = value.toNat := by
  obtain ⟨found, word, -, -, rfl⟩ := value?_updateIn placed frozen valued
  rw [lowBytes_toNat sized, Nat.mod_mod]

/-- A part is read from the bytes that are counted on from its first one, if the pieces of the whole
are all within its offsets. These are its bytes in the whole if one place holds them all. -/
theorem part_value_iff (unwrapped : whole.Unwrapped) (frozen : env.state = state.view)
    (placed : part.place = .offset offset)
    (sized : part.size.toNat = 1 ∨ part.size.toNat = 2 ∨ part.size.toNat = 4)
    (valued : (part.updateIn env (some (.ok whole))).value? = some value) {bytes : List UInt8}
    (all : whole.bytes? state.byteAt offset.toNat part.size.toNat = some bytes) :
    (value.toNat = ByteOrder.leastFirst bytes ↔
      whole.bytesOn? state.byteAt offset.toNat part.size.toNat = some bytes) ∧
    (whole.Undivided offset.toNat part.size.toNat →
      value.toNat = ByteOrder.leastFirst bytes) := by
  have length : bytes.length = part.size.toNat := bytesFrom_length all
  have exact_ : value.toNat = ByteOrder.leastFirst bytes ↔
      whole.bytesOn? state.byteAt offset.toNat part.size.toNat = some bytes := by
    rw [bytesOn?_updateIn unwrapped frozen placed sized valued, Option.some.injEq]
    constructor
    · intro combined
      rw [combined, ← length, ByteOrder.digits_leastFirst]
    · rintro rfl
      rw [ByteOrder.leastFirst_digits, value_lt frozen placed sized valued]
  exact ⟨exact_, fun undivided =>
    exact_.2 (Result.bytesOn?_of_undivided (by omega) undivided all)⟩

def scattered : Snapshot :=
  ((Snapshot.empty.setRegister 0 0x2211).setRegister 1 0x4433).writeBytes 0x3000
    [0x55, 0x66, 0x77, 0x88, 0x99]

def scatteredPlace : VariablePlace :=
  .located (.expression (.ofOperations
    [.register 0, .piece 2, .register 1, .piece 2, .const 0x3000, .piece 4]))

def scatteredWhole : Result :=
  .pieces [⟨2, .value 0x2211⟩, ⟨2, .value 0x4433⟩, ⟨4, .address 0x3000⟩]

def frozenIn (state : Snapshot) : Environment := ⟨state.view, 0, none, none⟩

def member (offset size : UInt32) : Variable := unevaluated "x" 0 size (.offset offset) []

theorem part_value_scattered :
    ((member 5 2).updateIn (frozenIn scattered) (some (.ok scatteredWhole))).value? = some 0x7766 ∧
      scatteredWhole.bytes? scattered.byteAt 5 2 = some [0x66, 0x77] ∧
      scatteredWhole.Unwrapped ∧ scatteredWhole.Undivided 5 2 ∧
      (0x7766 : UInt32).toNat = ByteOrder.leastFirst [0x66, 0x77] := by
  have valued : ((member 5 2).updateIn (frozenIn scattered) (some (.ok scatteredWhole))).value? =
      some 0x7766 := by rfl
  have all : scatteredWhole.bytes? scattered.byteAt 5 2 = some [0x66, 0x77] := by rfl
  have undivided : scatteredWhole.Undivided 5 2 := by
    intro i small
    match i, small with
    | 0, _ => rfl
    | 1, _ => rfl
  have unwrapped : scatteredWhole.Unwrapped := by simp [scatteredWhole, Result.Unwrapped, UInt32.size]
  have frozen : (frozenIn scattered).state = scattered.view := rfl
  have placed : (member 5 2).place = .offset 5 := rfl
  have sized : (member 5 2).size.toNat = 1 ∨ (member 5 2).size.toNat = 2 ∨
      (member 5 2).size.toNat = 4 := .inr (.inl rfl)
  exact ⟨valued, all, unwrapped, undivided,
    (part_value_iff unwrapped frozen placed sized valued all).2 undivided⟩

/-- A part that begins in one register and ends in another keeps the bytes of the first alone. -/
theorem member_misread :
    locate (frozenIn scattered) scatteredPlace none = .ok scatteredWhole ∧
      scatteredWhole.bytes? scattered.byteAt 0 4 = some [0x11, 0x22, 0x33, 0x44] ∧
      scatteredWhole.value? scattered.peek = some 0x44332211 ∧
      ((member 0 4).updateIn (frozenIn scattered) (some (.ok scatteredWhole))).value? =
        some 0x2211 ∧
      (0x2211 : UInt32).toNat ≠ ByteOrder.leastFirst [0x11, 0x22, 0x33, 0x44] :=
  ⟨rfl, rfl, rfl, rfl, by decide⟩

end Variable

end SourceScope
