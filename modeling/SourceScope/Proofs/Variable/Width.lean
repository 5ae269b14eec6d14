import Mathlib.Data.List.TakeDrop
import SourceScope.Proofs.Variable.Failure
import SourceScope.Proofs.Variable.Part

set_option autoImplicit false

namespace SourceScope

namespace Location

theorem leastFirst_append (first second : List UInt8) :
    ByteOrder.leastFirst (first ++ second) =
      ByteOrder.leastFirst first + ByteOrder.capacity first.length * ByteOrder.leastFirst second := by
  induction first with
  | nil => simp [ByteOrder.leastFirst, ByteOrder.capacity]
  | cons byte rest ih =>
    simp only [List.cons_append, ByteOrder.leastFirst, ih, List.length_cons, ByteOrder.capacity,
      Nat.mul_add, Nat.add_assoc, Nat.mul_assoc]

theorem leastFirst_inj {first second : List UInt8} (same : first.length = second.length) :
    ByteOrder.leastFirst first = ByteOrder.leastFirst second ↔ first = second := by
  refine ⟨fun equal => ?_, congrArg _⟩
  rw [← ByteOrder.digits_leastFirst first, ← ByteOrder.digits_leastFirst second, equal, same]

theorem leastFirst_takeD (count : Nat) (bytes : List UInt8) :
    ByteOrder.leastFirst (bytes.takeD count 0) =
      ByteOrder.leastFirst bytes % ByteOrder.capacity count := by
  induction count generalizing bytes with
  | zero => simp [ByteOrder.leastFirst, ByteOrder.capacity, List.takeD, Nat.mod_one]
  | succ count ih =>
    cases bytes with
    | nil =>
      have rest := ih []
      simp_all [List.takeD, ByteOrder.leastFirst]
    | cons byte rest =>
      have small := byte.toNat_lt
      have low : (byte.toNat + 256 * ByteOrder.leastFirst rest) % 256 = byte.toNat := by omega
      have high : (byte.toNat + 256 * ByteOrder.leastFirst rest) / 256 =
        ByteOrder.leastFirst rest := by omega
      simp only [List.takeD, List.headD_cons, List.tail_cons, ByteOrder.leastFirst, ih,
        ByteOrder.capacity, Nat.mod_mul, low, high]

def Place.word (peek : UInt32 → Option UInt32) : Place → UInt32
  | .address base => (peek base).getD 0
  | .value word => word
  | .empty => 0

def Piece.word (peek : UInt32 → Option UInt32) (piece : Piece) : UInt32 := piece.place.word peek

def Piece.bytes (peek : UInt32 → Option UInt32) (piece : Piece) : List UInt8 :=
  ByteOrder.digits piece.size.toNat (piece.word peek).toNat

def joined (peek : UInt32 → Option UInt32) (pieces : List Piece) : List UInt8 :=
  pieces.flatMap (·.bytes peek)

/-- What is left of a word above its low bytes after it is cut to a size. -/
def surplusOf (size : Nat) (word : UInt32) : Nat :=
  if size = 0 ∨ size = 3 then word.toNat >>> (8 * size) <<< (8 * size) else 0

def surplus (peek : UInt32 → Option UInt32) : List Piece → Nat
  | [] => 0
  | piece :: rest =>
    surplusOf piece.size.toNat (piece.word peek) ||| surplus peek rest <<< (8 * piece.size.toNat)

theorem shiftRight_or_mod (n bits : Nat) : n >>> bits <<< bits ||| n % 2 ^ bits = n := by
  rw [← Nat.shiftLeft_add_eq_or_of_lt (Nat.mod_lt n (Nat.two_pow_pos bits)), Nat.shiftLeft_eq,
    Nat.shiftRight_eq_div_pow, Nat.mul_comm]
  exact Nat.div_add_mod n (2 ^ bits)

theorem lowBytes_of_uncut {size : Nat} (one : size ≠ 1) (two : size ≠ 2) (word : UInt32) :
    lowBytes size word = word := by
  unfold lowBytes
  split <;> trivial

theorem lowBytes_split (size : Nat) (word : UInt32) :
    (lowBytes size word).toNat =
      word.toNat % ByteOrder.capacity size ||| surplusOf size word := by
  unfold surplusOf
  by_cases uncut : size = 0 ∨ size = 3
  · rw [if_pos uncut, Nat.or_comm, capacity_eq_two_pow, shiftRight_or_mod,
      lowBytes_of_uncut (by omega) (by omega)]
  rw [if_neg uncut, Nat.or_zero]
  by_cases small : size < 4
  · exact lowBytes_toNat (by omega) word
  · have fits : word.toNat < ByteOrder.capacity size := by
      rw [capacity_eq_two_pow]
      exact Nat.lt_of_lt_of_le word.toNat_lt (Nat.pow_le_pow_right (by decide) (by omega))
    rw [Nat.mod_eq_of_lt fits, lowBytes_of_uncut (by omega) (by omega)]

def wide (peek : UInt32 → Option UInt32) : List Piece → Nat
  | [] => 0
  | piece :: rest =>
    (lowBytes piece.size.toNat (piece.word peek)).toNat |||
      wide peek rest <<< (8 * piece.size.toNat)

theorem wide_eq (peek : UInt32 → Option UInt32) (pieces : List Piece) :
    wide peek pieces = ByteOrder.leastFirst (joined peek pieces) ||| surplus peek pieces := by
  induction pieces with
  | nil => simp [wide, joined, surplus, ByteOrder.leastFirst]
  | cons piece rest ih =>
    have below := Nat.mod_lt (piece.word peek).toNat (Nat.two_pow_pos (8 * piece.size.toNat))
    have front : ByteOrder.leastFirst (joined peek (piece :: rest)) =
        (piece.word peek).toNat % 2 ^ (8 * piece.size.toNat) |||
          ByteOrder.leastFirst (joined peek rest) <<< (8 * piece.size.toNat) := by
      rw [joined, List.flatMap_cons, leastFirst_append, Piece.bytes, ByteOrder.leastFirst_digits,
        ByteOrder.length_digits, capacity_eq_two_pow, Nat.or_comm,
        ← Nat.shiftLeft_add_eq_or_of_lt below, Nat.shiftLeft_eq, Nat.add_comm, Nat.mul_comm]
      rfl
    rw [wide, surplus, ih, front, lowBytes_split, capacity_eq_two_pow, Nat.shiftLeft_or_distrib]
    ac_rfl

theorem shiftLeft_mod_of_le {n shift bits : Nat} (beyond : bits ≤ shift) :
    n <<< shift % 2 ^ bits = 0 := by
  rw [Nat.shiftLeft_eq]
  exact Nat.mod_eq_zero_of_dvd (Nat.dvd_mul_left_of_dvd (Nat.pow_dvd_pow 2 beyond) n)

theorem piecesValue_cons {peek : UInt32 → Option UInt32} {piece : Piece} {rest : List Piece}
    {shift : Nat} {value : UInt32} (inside : shift < 32)
    (read : piecesValue peek shift (piece :: rest) = some value) :
    ∃ high, piecesValue peek (shift + 8 * piece.size.toNat) rest = some high ∧
      value = lowBytes piece.size.toNat (piece.word peek) <<< UInt32.ofNat shift ||| high := by
  rw [piecesValue, if_neg (Nat.not_le.2 inside)] at read
  rw [Piece.word]
  cases place : piece.place with
  | address address =>
    simp only [place, bind, Option.bind_eq_some_iff, pure, Option.some.injEq] at read
    obtain ⟨word, found, high, later, rfl⟩ := read
    exact ⟨high, later, by rw [Place.word, found, Option.getD_some]⟩
  | value | empty =>
    simp only [place, bind, Option.bind_some, Option.bind_eq_some_iff, pure,
      Option.some.injEq] at read
    obtain ⟨high, later, rfl⟩ := read
    exact ⟨high, later, rfl⟩

theorem piecesValue_toNat {peek : UInt32 → Option UInt32} {pieces : List Piece} {shift : Nat}
    {value : UInt32} (read : piecesValue peek shift pieces = some value) :
    value.toNat = wide peek pieces <<< shift % 2 ^ 32 := by
  induction pieces generalizing shift value with
  | nil =>
    cases read
    simp [wide]
  | cons piece rest ih =>
    by_cases inside : shift < 32
    · obtain ⟨high, later, rfl⟩ := piecesValue_cons inside read
      have bits : (UInt32.ofNat shift).toNat % 32 = shift := by
        rw [UInt32.toNat_ofNat']
        omega
      rw [UInt32.toNat_or, UInt32.toNat_shiftLeft, bits, ih later, wide,
        Nat.shiftLeft_or_distrib, Nat.or_mod_two_pow, Nat.add_comm, Nat.shiftLeft_add]
    · -- pieces that begin behind the word are not read, and would be shifted out of it
      rw [piecesValue, if_pos (Nat.le_of_not_lt inside)] at read
      cases read
      exact (shiftLeft_mod_of_le (Nat.le_of_not_lt inside)).symm

theorem surplusOf_eq_zero {size : Nat} {word : UInt32}
    (fits : size = 0 ∨ size = 3 → word.toNat < ByteOrder.capacity size) :
    surplusOf size word = 0 := by
  unfold surplusOf
  split
  next uncut =>
    rw [Nat.shiftRight_eq_div_pow, ← capacity_eq_two_pow, Nat.div_eq_of_lt (fits uncut),
      Nat.zero_shiftLeft]
  · rfl

theorem surplus_eq_zero {peek : UInt32 → Option UInt32} {pieces : List Piece}
    (fit : ∀ piece ∈ pieces, piece.size = 0 ∨ piece.size = 3 →
      (piece.word peek).toNat < ByteOrder.capacity piece.size.toNat) :
    surplus peek pieces = 0 := by
  induction pieces with
  | nil => rfl
  | cons piece rest ih =>
    rw [List.forall_mem_cons] at fit
    have own : surplusOf piece.size.toNat (piece.word peek) = 0 :=
      surplusOf_eq_zero fun uncut => fit.1 (by simpa [← UInt32.toNat_inj] using uncut)
    rw [surplus, own, ih fit.2, Nat.zero_shiftLeft, Nat.or_zero]

/-- A split value is the first four bytes of its pieces with the bits on top that cutting leaves. -/
theorem value_pieces {peek : UInt32 → Option UInt32} {pieces : List Piece} {value : UInt32}
    (read : (Result.pieces pieces).value? peek = some value) :
    value.toNat = ByteOrder.leastFirst ((joined peek pieces).takeD 4 0) |||
        surplus peek pieces % 2 ^ 32 ∧
      ((∀ piece ∈ pieces, piece.size = 0 ∨ piece.size = 3 →
          (piece.word peek).toNat < ByteOrder.capacity piece.size.toNat) →
        value.toNat = ByteOrder.leastFirst ((joined peek pieces).takeD 4 0)) := by
  have combined : value.toNat = ByteOrder.leastFirst ((joined peek pieces).takeD 4 0) |||
      surplus peek pieces % 2 ^ 32 := by
    rw [piecesValue_toNat read, Nat.shiftLeft_zero, wide_eq, Nat.or_mod_two_pow, leastFirst_takeD]
    rfl
  refine ⟨combined, fun fit => ?_⟩
  rw [combined, surplus_eq_zero fit, Nat.zero_mod, Nat.or_zero]

def piecesOfThree : List Piece := [⟨1, .empty⟩, ⟨2, .address 0x3000⟩, ⟨3, .value 0x77⟩]

theorem value_pieces_piecesOfThree :
    (Result.pieces piecesOfThree).value? Variable.scattered.peek = some 0x77665500 ∧
      (0x77665500 : UInt32).toNat =
        ByteOrder.leastFirst ((joined Variable.scattered.peek piecesOfThree).takeD 4 0) := by
  have read : (Result.pieces piecesOfThree).value? Variable.scattered.peek = some 0x77665500 := rfl
  have fit : ∀ piece ∈ piecesOfThree, piece.size = 0 ∨ piece.size = 3 →
      (piece.word Variable.scattered.peek).toNat < ByteOrder.capacity piece.size.toNat := by
    decide
  exact ⟨read, (value_pieces read).2 fit⟩

def overlapping : List Piece := [⟨3, .value 0xaa332211⟩, ⟨1, .value 0x44⟩]

def overlappingState : Snapshot :=
  (Snapshot.empty.setRegister 0 0xaa332211).setRegister 1 0x44

def overlappingPlace : VariablePlace :=
  .located (.expression (.ofOperations [.register 0, .piece 3, .register 1, .piece 1]))

/-- The fourth byte of the first word is left in the byte of the second piece. -/
theorem overlapping_mixed :
    Variable.locate (Variable.frozenIn overlappingState) overlappingPlace none =
        .ok (.pieces overlapping) ∧
      (Result.pieces overlapping).value? overlappingState.peek = some 0xee332211 ∧
      (joined overlappingState.peek overlapping).takeD 4 0 = [0x11, 0x22, 0x33, 0x44] ∧
      (0xee332211 : UInt32).toNat ≠ ByteOrder.leastFirst [0x11, 0x22, 0x33, 0x44] :=
  ⟨rfl, rfl, rfl, by decide⟩

end Location

/-- The words of a state are made of the bytes of a memory. -/
def Coprocessor.Reads (state : Coprocessor) (memory : UInt32 → Option UInt8) : Prop :=
  ∀ address, state.peek address =
    (Location.bytesFrom (fun i => memory (address + UInt32.ofNat i)) 0 4).map
      fun bytes => UInt32.ofNat (ByteOrder.leastFirst bytes)

theorem Snapshot.view_reads (state : Snapshot) : state.view.Reads state.byteAt := by
  intro address
  have first : address + UInt32.ofNat 0 = address := UInt32.add_zero address
  simp only [view, peek, Location.bytesFrom, first, bind, pure, Option.map_bind, Function.comp_def,
    Option.bind_assoc, Option.bind_some, Option.map_some]
  rfl

namespace Location

theorem bytesFrom_isSome {byte : Nat → Option UInt8} {first count : Nat}
    (readable : ∀ i < count, (byte (first + i)).isSome) :
    ∃ bytes, bytesFrom byte first count = some bytes := by
  induction count generalizing first with
  | zero => exact ⟨[], rfl⟩
  | succ count ih =>
    obtain ⟨head, at_⟩ := Option.isSome_iff_exists.1 (readable 0 (Nat.succ_pos count))
    have later : ∀ i < count, (byte (first + 1 + i)).isSome := fun i small => by
      have next := readable (i + 1) (Nat.succ_lt_succ small)
      rwa [← Nat.add_assoc, Nat.add_right_comm] at next
    obtain ⟨rest, tail⟩ := ih later
    exact ⟨head :: rest, bytesFrom_succ.2 ⟨head, rest, at_, tail, rfl⟩⟩

theorem getElem?_bytesFrom {byte : Nat → Option UInt8} {first count : Nat} {bytes : List UInt8}
    (all : bytesFrom byte first count = some bytes) {i : Nat} (small : i < count) :
    bytes[i]? = byte (first + i) := by
  induction count generalizing first i bytes with
  | zero => exact absurd small (Nat.not_lt_zero i)
  | succ count ih =>
    obtain ⟨head, rest, at_, tail, rfl⟩ := bytesFrom_succ.1 all
    cases i with
    | zero => exact at_.symm
    | succ i =>
      rw [List.getElem?_cons_succ, ih tail (Nat.lt_of_succ_lt_succ small), Nat.add_right_comm,
        Nat.add_assoc]

theorem lowBytes_eq_iff {size : Nat} {bytes bytes' : List UInt8} {word word' : UInt32}
    (sized : 1 ≤ size ∧ size ≤ 4) (four : bytes.length = 4) (four' : bytes'.length = 4)
    (combined : word.toNat = ByteOrder.leastFirst bytes)
    (combined' : word'.toNat = ByteOrder.leastFirst bytes')
    (same : ∀ i < size, bytes[i]? = bytes'[i]?) :
    lowBytes size word = lowBytes size word' ↔ (size = 3 → bytes[3]? = bytes'[3]?) := by
  by_cases three : size = 3
  · have words : word = word' ↔ bytes = bytes' := by
      rw [← UInt32.toNat_inj, combined, combined']
      exact leastFirst_inj (four.trans four'.symm)
    rw [lowBytes_of_uncut (by omega) (by omega), lowBytes_of_uncut (by omega) (by omega), words]
    refine ⟨fun equal _ => equal ▸ rfl, fun last => List.ext_getElem? fun i => ?_⟩
    obtain small | rfl | large : i < 3 ∨ i = 3 ∨ 4 ≤ i := by omega
    · exact same i (by omega)
    · exact last three
    · rw [List.getElem?_eq_none (by omega), List.getElem?_eq_none (by omega)]
  · have first : bytes.take size = bytes'.take size := by
      refine List.ext_getElem? fun i => ?_
      by_cases small : i < size
      · rw [List.getElem?_take_of_lt small, List.getElem?_take_of_lt small, same i small]
      · rw [List.getElem?_take_eq_none (by omega), List.getElem?_take_eq_none (by omega)]
    have equal : lowBytes size word = lowBytes size word' := by
      rw [← UInt32.toNat_inj, lowBytes_toNat (by omega), lowBytes_toNat (by omega), combined,
        combined', ← leastFirst_takeD, ← leastFirst_takeD, List.takeD_eq_take 0 (by omega),
        List.takeD_eq_take 0 (by omega), first]
    simp [equal, three]

theorem exists_word {state : Coprocessor} {memory : UInt32 → Option UInt8} {a : UInt32}
    (reads : state.Reads memory) (readable : ∀ i < 4, (memory (a + UInt32.ofNat i)).isSome) :
    ∃ (bytes : List UInt8) (word : UInt32), state.peek a = some word ∧ bytes.length = 4 ∧
      word.toNat = ByteOrder.leastFirst bytes ∧
      ∀ i < 4, bytes[i]? = memory (a + UInt32.ofNat i) := by
  have whole : ∃ bytes, bytesFrom (fun i => memory (a + UInt32.ofNat i)) 0 4 = some bytes :=
    bytesFrom_isSome fun i small => by simpa using readable i small
  obtain ⟨bytes, all⟩ := whole
  have four := bytesFrom_length all
  have fits := ByteOrder.leastFirst_lt bytes
  rw [four] at fits
  refine ⟨bytes, UInt32.ofNat (ByteOrder.leastFirst bytes), ?_, four,
    UInt32.toNat_ofNat_of_lt' fits, fun i small => ?_⟩
  · rw [reads a, all]
    rfl
  · rw [getElem?_bytesFrom all small, Nat.zero_add]

end Location

namespace Variable

open Location

variable {env env' : Environment} {whole whole' : Option Result} {v : Variable} {a : UInt32}

theorem value?_of_address? (resolved : (v.updateIn env (whole.map .ok)).address? = some a) :
    (v.updateIn env (whole.map .ok)).value? =
      (env.state.peek a).map (lowBytes v.size.toNat) := by
  rw [value?, resolution_updateIn, locate_of_address? resolved]
  rfl

/-- A variable in memory has the value of its bytes alone, unless it is of three bytes, when its
value depends on the byte behind them as well. -/
theorem value_eq_iff {memory memory' : UInt32 → Option UInt8} (reads : env.state.Reads memory)
    (reads' : env'.state.Reads memory') (sized : 1 ≤ v.size.toNat ∧ v.size.toNat ≤ 4)
    (resolved : (v.updateIn env (whole.map .ok)).address? = some a)
    (resolved' : (v.updateIn env' (whole'.map .ok)).address? = some a)
    (readable : ∀ i < 4, (memory (a + UInt32.ofNat i)).isSome)
    (readable' : ∀ i < 4, (memory' (a + UInt32.ofNat i)).isSome)
    (agree : ∀ i < v.size.toNat, memory (a + UInt32.ofNat i) = memory' (a + UInt32.ofNat i)) :
    ∃ value value', (v.updateIn env (whole.map .ok)).value? = some value ∧
      (v.updateIn env' (whole'.map .ok)).value? = some value' ∧
      (value = value' ↔ (v.size = 3 → memory (a + 3) = memory' (a + 3))) := by
  obtain ⟨bytes, word, peeked, four, combined, at_⟩ := exists_word reads readable
  obtain ⟨bytes', word', peeked', four', combined', at'⟩ := exists_word reads' readable'
  refine ⟨_, _, by rw [value?_of_address? resolved, peeked]; rfl,
    by rw [value?_of_address? resolved', peeked']; rfl, ?_⟩
  have same (i : Nat) (small : i < v.size.toNat) : bytes[i]? = bytes'[i]? := by
    rw [at_ i (by omega), at' i (by omega), agree i small]
  have last : bytes[3]? = bytes'[3]? ↔ memory (a + 3) = memory' (a + 3) := by
    rw [at_ 3 (by omega), at' 3 (by omega)]
    rfl
  have three : v.size.toNat = 3 ↔ v.size = 3 := UInt32.toNat_inj (b := 3)
  rw [lowBytes_eq_iff sized four four' combined combined' same, last, three]

def stored (bytes : List UInt8) : Snapshot := Snapshot.empty.writeBytes 0x3000 bytes

def inMemory (size : UInt32) : Variable :=
  unevaluated "v" 0 size (.located (.expression (.ofOperations [.const 0x3000]))) []

theorem value_eq_iff_inMemory : ∃ value,
    ((inMemory 2).update (frozenIn (stored [0x11, 0x22, 0x33, 0x44]))).value? = some value ∧
      ((inMemory 2).update (frozenIn (stored [0x11, 0x22, 0x99, 0x88]))).value? = some value := by
  have reads (state : Snapshot) : (frozenIn state).state.Reads state.byteAt := state.view_reads
  have resolved (state : Snapshot) : ((inMemory 2).updateIn (frozenIn state)
      ((none : Option Result).map .ok)).address? = some 0x3000 := rfl
  have readable : ∀ i < 4,
      ((stored [0x11, 0x22, 0x33, 0x44]).byteAt (0x3000 + UInt32.ofNat i)).isSome := by decide
  have readable' : ∀ i < 4,
      ((stored [0x11, 0x22, 0x99, 0x88]).byteAt (0x3000 + UInt32.ofNat i)).isSome := by decide
  have agree : ∀ i < (inMemory 2).size.toNat,
      (stored [0x11, 0x22, 0x33, 0x44]).byteAt (0x3000 + UInt32.ofNat i) =
        (stored [0x11, 0x22, 0x99, 0x88]).byteAt (0x3000 + UInt32.ofNat i) := by decide
  obtain ⟨value, value', first, second, same⟩ := value_eq_iff (reads _) (reads _) (by decide)
    (resolved _) (resolved _) readable readable' agree
  obtain rfl := same.2 nofun
  exact ⟨value, first, second⟩

/-- A variable of three bytes changes with the byte behind it. -/
theorem inMemory_overlaps :
    (∀ i < 3, (stored [0x11, 0x22, 0x33, 0]).byteAt (0x3000 + UInt32.ofNat i) =
      (stored [0x11, 0x22, 0x33, 0x44]).byteAt (0x3000 + UInt32.ofNat i)) ∧
    (stored [0x11, 0x22, 0x33, 0]).registers = (stored [0x11, 0x22, 0x33, 0x44]).registers ∧
    ((inMemory 3).update (frozenIn (stored [0x11, 0x22, 0x33, 0]))).resolution =
      .resolved (some 0x3000) (some 0x332211) ∧
    ((inMemory 3).update (frozenIn (stored [0x11, 0x22, 0x33, 0x44]))).resolution =
      .resolved (some 0x3000) (some 0x44332211) :=
  ⟨by decide, rfl, rfl, rfl⟩

end Variable

end SourceScope
