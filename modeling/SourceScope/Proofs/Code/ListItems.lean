import Mathlib.Data.List.ReduceOption
import SourceScope.Bytes.Order

set_option autoImplicit false

namespace SourceScope

/-- An interval relative to a base, other than the pairs that end a list or choose a base. -/
structure ListItem.Interval where
  start : UInt32
  stop : UInt32
  ordinary : start < 0xffffffff
  nonzero : ¬(start = 0 ∧ stop = 0)

inductive ListItem (A : Type) where
  | chooseBase (address : UInt32)
  | entry (span : ListItem.Interval) (payload : A)

namespace ListItem

variable {A B : Type}

def chosenBase? : ListItem A → Option UInt32
  | chooseBase address => some address
  | entry _ _ => none

def latestBase (start : UInt32) (items : List (ListItem A)) : UInt32 :=
  (items.filterMap chosenBase?).getLastD start

def entry? : ListItem A → Option (Interval × A)
  | chooseBase _ => none
  | entry span payload => some (span, payload)

def based (start : UInt32) (items : List (ListItem A)) : List (UInt32 × Interval × A) :=
  (items.mapIdx fun index item =>
    item.entry?.map (latestBase start (items.take index), ·)).reduceOption

def map (f : A → B) : ListItem A → ListItem B
  | chooseBase address => chooseBase address
  | entry span payload => entry span (f payload)

def bytes (order : ByteOrder) (payloadBytes : A → List UInt8) : ListItem A → List UInt8
  | chooseBase address => order.bytes32 0xffffffff ++ order.bytes32 address
  | entry span payload =>
    order.bytes32 span.start ++ (order.bytes32 span.stop ++ payloadBytes payload)

def listBytes (order : ByteOrder) (payloadBytes : A → List UInt8) (items : List (ListItem A)) :
    List UInt8 :=
  items.flatMap (bytes order payloadBytes) ++ (order.bytes32 0 ++ order.bytes32 0)

def Ends (order : ByteOrder) (payloadBytes : A → List UInt8) (bytes : List UInt8) : Prop :=
  ∃ items rest, bytes = listBytes order payloadBytes items ++ rest

theorem latestBase_cons_chooseBase (start address : UInt32) (items : List (ListItem A)) :
    latestBase start (chooseBase address :: items) = latestBase address items := by
  simp only [latestBase, List.filterMap_cons, chosenBase?, List.getLastD_cons]

theorem latestBase_cons_entry (start : UInt32) (span : Interval) (payload : A)
    (items : List (ListItem A)) :
    latestBase start (entry span payload :: items) = latestBase start items := by
  simp only [latestBase, List.filterMap_cons, chosenBase?]

@[simp] theorem based_nil (start : UInt32) : based start ([] : List (ListItem A)) = [] := rfl

@[simp] theorem based_cons_chooseBase (start address : UInt32) (items : List (ListItem A)) :
    based start (chooseBase address :: items) = based address items := by
  simp [based, List.mapIdx_cons, entry?, latestBase_cons_chooseBase]

@[simp] theorem based_cons_entry (start : UInt32) (span : Interval) (payload : A)
    (items : List (ListItem A)) :
    based start (entry span payload :: items) = (start, span, payload) :: based start items := by
  have first : latestBase start ([] : List (ListItem A)) = start := rfl
  simp [based, List.mapIdx_cons, entry?, latestBase_cons_entry, first]

theorem exists_mem_based {start : UInt32} {span : Interval} {payload : A}
    {items : List (ListItem A)} :
    (∃ base, (base, span, payload) ∈ based start items) ↔ entry span payload ∈ items := by
  induction items generalizing start with
  | nil => simp
  | cons item items ih =>
    cases item with
    | chooseBase address => rw [based_cons_chooseBase, ih]; simp
    | entry other first => simp [exists_or, ih]

theorem based_map (f : A → B) (start : UInt32) (items : List (ListItem A)) :
    based start (items.map (map f)) =
      (based start items).map fun (base, span, payload) => (base, span, f payload) := by
  induction items generalizing start with
  | nil => rfl
  | cons item items ih => cases item <;> simp [map, ih]

section

variable {order : ByteOrder} {payloadBytes : A → List UInt8} {rest : List UInt8}

theorem ends_zeros : Ends order payloadBytes (order.bytes32 0 ++ (order.bytes32 0 ++ rest)) :=
  ⟨[], rest, by simp [listBytes]⟩

theorem Ends.chooseBase (ends : Ends order payloadBytes rest) (address : UInt32) :
    Ends order payloadBytes (order.bytes32 0xffffffff ++ (order.bytes32 address ++ rest)) := by
  obtain ⟨items, behind, rfl⟩ := ends
  exact ⟨.chooseBase address :: items, behind, by simp [listBytes, bytes]⟩

theorem Ends.entry (ends : Ends order payloadBytes rest) (span : Interval) (payload : A) :
    Ends order payloadBytes (order.bytes32 span.start ++ (order.bytes32 span.stop ++
      (payloadBytes payload ++ rest))) := by
  obtain ⟨items, behind, rfl⟩ := ends
  exact ⟨.entry span payload :: items, behind, by simp [listBytes, bytes]⟩

theorem not_ends_nil : ¬Ends order payloadBytes [] := by
  rintro ⟨items, rest, empty⟩
  have lengths := congrArg List.length empty
  simp [listBytes, ByteOrder.bytes32] at lengths
  omega

theorem lt_marker_of_ne {word : UInt32} (ordinary : word ≠ 0xffffffff) : word < 0xffffffff := by
  have most := word.toNat_lt
  have different : word.toNat ≠ 0xffffffff := fun same => ordinary (UInt32.toNat_inj.1 same)
  exact UInt32.lt_iff_toNat_lt.2 (by simp only [UInt32.reduceToNat]; omega)

end

end ListItem

end SourceScope
