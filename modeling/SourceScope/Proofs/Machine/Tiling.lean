import Mathlib
import SourceScope.Bytes.Order
import SourceScope.Machine.Opcode

set_option autoImplicit false

namespace SourceScope.Opcode

def bytes (o : Opcode) : List UInt8 :=
  if o.size = 4 then
    ByteOrder.little.encode 2 (o.bits.toNat / 65536) ++ ByteOrder.little.encode 2 o.bits.toNat
  else ByteOrder.little.encode 2 o.bits.toNat

def Holds (o : Opcode) (address : UInt32) : Prop :=
  o.address.toNat ≤ address.toNat ∧ address.toNat < o.address.toNat + o.size.toNat

structure Tiling (origin : UInt32) (data : List UInt8) (opcodes : List Opcode) : Prop where
  first : ∀ o ∈ opcodes.head?, o.address = origin
  next : opcodes.IsChain fun a b => b.address.toNat = a.address.toNat + a.size.toNat
  sizes : ∀ o ∈ opcodes, o.size = 2 ∨ o.size = 4
  total : (opcodes.map (·.size.toNat)).sum = data.length / 2 * 2
  stored : opcodes.flatMap bytes = data.take (data.length / 2 * 2)

theorem halfword_lt (low high : UInt8) : halfword low high < 65536 := by
  have := low.toNat_lt
  have := high.toNat_lt
  unfold halfword
  omega

theorem encode_halfword (low high : UInt8) :
    ByteOrder.little.encode 2 (halfword low high) = [low, high] := by
  have same := ByteOrder.encode_value .little [low, high]
  simpa [ByteOrder.value, ByteOrder.leastFirst, halfword] using same

theorem bytes_narrow (address : UInt32) (low high : UInt8) :
    (narrow address (halfword low high)).bytes = [low, high] := by
  have bits : (UInt32.ofNat (halfword low high)).toNat = halfword low high :=
    UInt32.toNat_ofNat_of_lt' (Nat.lt_trans (halfword_lt low high) (by decide))
  rw [bytes, narrow, bits, if_neg (by simp), encode_halfword]

theorem bytes_wide (address : UInt32) (a b c d : UInt8) :
    (wide address (halfword a b) (halfword c d)).bytes = [a, b, c, d] := by
  have first := halfword_lt a b
  have second := halfword_lt c d
  have bits : (UInt32.ofNat (65536 * halfword a b + halfword c d)).toNat =
      65536 * halfword a b + halfword c d :=
    UInt32.toNat_ofNat_of_lt' (show _ < 4294967296 by omega)
  have high : (65536 * halfword a b + halfword c d) / 65536 = halfword a b := by omega
  have low : (65536 * halfword a b + halfword c d) % ByteOrder.capacity 2 = halfword c d := by
    rw [show ByteOrder.capacity 2 = 65536 from rfl]
    omega
  have stored : ByteOrder.little.encode 2 (65536 * halfword a b + halfword c d) = [c, d] := by
    rw [ByteOrder.encode, ← ByteOrder.digits_mod, low, ← ByteOrder.encode, encode_halfword]
  rw [bytes, wide, bits, if_pos rfl, high, stored, encode_halfword]
  rfl

theorem mem_head?_sweep {origin : UInt32} {data : List UInt8} {o : Opcode}
    (head : o ∈ (sweep origin data).head?) : o.address = origin ∧ 2 ≤ data.length := by
  revert head
  fun_cases sweep origin data with
  | case1 a b c d rest isWide =>
    intro head
    obtain rfl : wide origin (halfword a b) (halfword c d) = o := by simpa using head
    exact ⟨rfl, by simp⟩
  | case2 a b c d rest isNarrow =>
    intro head
    obtain rfl : narrow origin (halfword a b) = o := by simpa using head
    exact ⟨rfl, by simp⟩
  | case3 a b tail short =>
    intro head
    obtain rfl : narrow origin (halfword a b) = o := by simpa using head
    exact ⟨rfl, by simp⟩
  | case4 => simp

theorem Tiling.cons {o : Opcode} {origin : UInt32} {front rest : List UInt8} {later : List Opcode}
    (tiling : Tiling origin rest later)
    (ends : ∀ b ∈ later.head?, b.address.toNat = o.address.toNat + o.size.toNat)
    (size : o.size = 2 ∨ o.size = 4) (stored : o.bytes = front)
    (length : front.length = o.size.toNat) : Tiling o.address (front ++ rest) (o :: later) := by
  have even : (front ++ rest).length / 2 * 2 = front.length + rest.length / 2 * 2 := by
    have double : front.length = 2 ∨ front.length = 4 := by
      rcases size with two | four
      · exact .inl (by rw [length, two]; rfl)
      · exact .inr (by rw [length, four]; rfl)
    rw [List.length_append]
    omega
  constructor
  case first => simp
  case next => exact List.isChain_cons.2 ⟨ends, tiling.next⟩
  case sizes => exact List.forall_mem_cons.2 ⟨size, tiling.sizes⟩
  case total => rw [List.map_cons, List.sum_cons, tiling.total, even, length]
  case stored =>
    rw [List.flatMap_cons, stored, tiling.stored, even, List.take_length_add_append]

theorem Tiling.nil {origin : UInt32} {data : List UInt8} (short : data.length < 2) :
    Tiling origin data [] := by
  have none : data.length / 2 * 2 = 0 := by omega
  constructor <;> simp [none]

theorem length_lt_two {data : List UInt8}
    (short : ∀ (a b : UInt8) (tail : List UInt8), data = a :: b :: tail → False) :
    data.length < 2 := by
  match data, short with
  | [], _ | [_], _ => simp
  | a :: b :: tail, short => exact (short a b tail rfl).elim

theorem toNat_add_le {origin size : UInt32} {length : Nat}
    (fits : origin.toNat + (size.toNat + length) ≤ 2 ^ 32) :
    (origin + size).toNat + length ≤ 2 ^ 32 := by
  rw [UInt32.toNat_add]
  omega

theorem head_sweep_ends {origin size : UInt32} {data : List UInt8}
    (fits : origin.toNat + (size.toNat + data.length) ≤ 2 ^ 32) :
    ∀ b ∈ (sweep (origin + size) data).head?, b.address.toNat = origin.toNat + size.toNat := by
  intro b head
  obtain ⟨address, long⟩ := mem_head?_sweep head
  rw [address, UInt32.toNat_add]
  omega

theorem tiling_sweep (origin : UInt32) (data : List UInt8)
    (fits : origin.toNat + data.length ≤ 2 ^ 32) : Tiling origin data (sweep origin data) := by
  fun_induction sweep origin data with
  | case1 origin a b c d rest isWide ih =>
    have room : origin.toNat + ((4 : UInt32).toNat + rest.length) ≤ 2 ^ 32 := by
      simpa [Nat.add_comm, Nat.add_left_comm] using fits
    exact (ih (toNat_add_le room)).cons (head_sweep_ends room) (.inr rfl)
      (bytes_wide origin a b c d) rfl
  | case2 origin a b c d rest isNarrow ih =>
    have room : origin.toNat + ((2 : UInt32).toNat + (c :: d :: rest).length) ≤ 2 ^ 32 := by
      simpa [Nat.add_comm, Nat.add_left_comm] using fits
    exact (ih (toNat_add_le room)).cons (head_sweep_ends room) (.inl rfl)
      (bytes_narrow origin a b) rfl
  | case3 origin a b tail short =>
    -- behind the last halfword there is an odd byte at most
    have odd : tail.length < 2 := length_lt_two short
    exact (@Tiling.nil origin tail odd).cons (by simp) (.inl rfl) (bytes_narrow origin a b) rfl
  | case4 data origin _ short => exact Tiling.nil (length_lt_two short)

def EndsBefore (a b : Opcode) : Prop := a.address.toNat + a.size.toNat ≤ b.address.toNat

instance : Trans EndsBefore EndsBefore EndsBefore where
  trans := by
    intro a b c first second
    unfold EndsBefore at *
    omega

section

variable {origin : UInt32} {data : List UInt8} {opcodes : List Opcode}

theorem Tiling.apart (tiling : Tiling origin data opcodes) : opcodes.Pairwise EndsBefore := by
  have chain : opcodes.IsChain EndsBefore :=
    tiling.next.imp fun _ _ same => Nat.le_of_eq same.symm
  exact chain.pairwise

theorem Tiling.ascending (tiling : Tiling origin data opcodes) :
    opcodes.Pairwise fun a b => a.address < b.address := by
  refine tiling.apart.imp_of_mem fun {a b} member _ before => ?_
  -- no opcode is empty
  have size : 0 < a.size.toNat := by
    rcases tiling.sizes a member with two | four
    · rw [two]; decide
    · rw [four]; decide
  unfold EndsBefore at before
  rw [UInt32.lt_iff_toNat_lt]
  omega

theorem exists_holds_iff {start : Nat} (first : ∀ o ∈ opcodes.head?, o.address.toNat = start)
    (next : opcodes.IsChain fun a b => b.address.toNat = a.address.toNat + a.size.toNat)
    (address : UInt32) :
    (∃ o ∈ opcodes, o.Holds address) ↔
      start ≤ address.toNat ∧ address.toNat < start + (opcodes.map (·.size.toNat)).sum := by
  induction opcodes generalizing start with
  | nil =>
    simp only [List.not_mem_nil, false_and, exists_false, List.map_nil, List.sum_nil, false_iff]
    omega
  | cons o rest ih =>
    obtain ⟨ends, next⟩ := List.isChain_cons.1 next
    have begins : o.address.toNat = start := first o rfl
    rw [begins] at ends
    rw [List.exists_mem_cons_iff, ih ends next]
    simp only [Holds, begins, List.map_cons, List.sum_cons]
    omega

theorem Tiling.exists_holds_iff (tiling : Tiling origin data opcodes) (address : UInt32) :
    (∃ o ∈ opcodes, o.Holds address) ↔
      origin.toNat ≤ address.toNat ∧ address.toNat < origin.toNat + data.length / 2 * 2 := by
  rw [← tiling.total]
  exact Opcode.exists_holds_iff (fun o head => congrArg UInt32.toNat (tiling.first o head))
    tiling.next address

end

end SourceScope.Opcode
