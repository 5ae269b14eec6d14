import SourceScope.Proofs.Layout.Arrays
import SourceScope.Proofs.Variable.Descent

set_option autoImplicit false

namespace SourceScope

namespace TypeTable

theorem size_array {settings : Settings} {index : EntryIndex} {id : TypeId} {type : SourceType}
    {element : TypeId} {count : UInt32} (found : (resolve settings index).get? id = some type)
    (shape : type.shape = .array element count)
    (fits : ((resolve settings index).sizeAt element).toNat * count.toNat < UInt32.size) :
    type.size.toNat = count.toNat * ((resolve settings index).sizeAt element).toNat := by
  rw [get?_resolve_eq, Option.map_eq_some_iff] at found
  obtain ⟨drafted, atId, rfl⟩ := found
  obtain ⟨array, sized⟩ := draft_arraysSized settings index id drafted element count atId
    (finalShape_eq_array shape)
  obtain ⟨part, stored, size⟩ := sized.measured
  have same : (resolve settings index).sizeAt element = part.size := by
    rw [sizeAt, get?_resolve_eq, stored]
    rfl
  rw [same] at fits ⊢
  have product : drafted.size.toNat = saturated (part.size.toNat * count.toNat) := by
    rw [size, toNat_saturatingMul]
  rw [finalType, product, saturated, Nat.min_eq_left (Nat.le_of_lt_succ fits), Nat.mul_comm]

end TypeTable

namespace Variable

open TypeTable

inductive Tiles : (start stop : Nat) → List (Nat × Nat) → Prop where
  | nil {address : Nat} : Tiles address address []
  | cons {start next stop : Nat} {rest : List (Nat × Nat)} (nonempty : start < next)
      (later : Tiles next stop rest) : Tiles start stop ((start, next) :: rest)

def extent? (v : Variable) : Option (Nat × Nat) :=
  v.address?.map fun a => (a.toNat, a.toNat + v.size.toNat)

theorem tiles_strides {stride : Nat} (positive : 0 < stride) (count start : Nat) :
    Tiles start (start + count * stride) ((List.range count).map fun i =>
      (start + i * stride, start + i * stride + stride)) := by
  induction count generalizing start with
  | zero => simpa using Tiles.nil
  | succ count ih =>
    have next (i : Nat) : start + stride + i * stride = start + (i + 1) * stride := by
      rw [Nat.succ_mul]
      omega
    have later := ih (start + stride)
    simp only [next] at later
    rw [List.range_succ_eq_map, List.map_cons, List.map_map, Nat.zero_mul, Nat.add_zero]
    exact .cons (Nat.lt_add_of_pos_right positive) later

variable {env : Environment} {types : TypeTable} {depth : Nat} {v : Variable}
  {whole : Option Location.Result} {a : UInt32}

theorem extent?_element {name : String} {element : TypeId} {stride : UInt32} {count i : Nat}
    (sized : 1 ≤ stride.toNat) (room : a.toNat + count * stride.toNat ≤ UInt32.size)
    (inside : i < count) :
    ((make types depth name element stride (.offset (UInt32.ofNat (i * stride.toNat)))).updateIn env
      (some (.ok (.address a)))).extent? =
        some (a.toNat + i * stride.toNat, a.toNat + i * stride.toNat + stride.toNat) := by
  have within : (i + 1) * stride.toNat ≤ count * stride.toNat := Nat.mul_le_mul_right _ inside
  rw [Nat.succ_mul] at within
  have offset : (UInt32.ofNat (i * stride.toNat)).toNat = i * stride.toNat :=
    UInt32.toNat_ofNat_of_lt' (by omega)
  have address : (a + UInt32.ofNat (i * stride.toNat)).toNat = a.toNat + i * stride.toNat := by
    rw [UInt32.toNat_add, offset]
    exact Nat.mod_eq_of_lt (show _ < UInt32.size by omega)
  rw [← address]
  rfl

/-- The elements of an array in memory fill it one behind the other. -/
theorem elements_tile {settings : Settings} {index : EntryIndex} {type : SourceType}
    {element : TypeId} {count : UInt32}
    (found : (resolve settings index).get? v.type = some type)
    (shape : type.shape = .array element count)
    (sized : 1 ≤ ((resolve settings index).sizeAt element).toNat)
    (fits : ((resolve settings index).sizeAt element).toNat * count.toNat < UInt32.size)
    (laidOut : v.LaidOut (resolve settings index) (depth + 1))
    (resolved : (v.updateIn env (whole.map .ok)).address? = some a)
    (room : a.toNat + type.size.toNat ≤ UInt32.size) :
    (v.updateIn env (whole.map .ok)).parts.map (·.name) =
        (List.range count.toNat).map (fun i => s!"[{i}]") ∧
      ∃ extents, (v.updateIn env (whole.map .ok)).parts.map extent? = extents.map some ∧
        Tiles a.toNat (a.toNat + type.size.toNat) extents := by
  have located := locate_of_address? resolved
  have size := size_array found shape fits
  rw [size] at room ⊢
  rw [laidOut.updated_parts, partsOf_array found shape, located, List.map_map]
  refine ⟨?_, _, ?_, tiles_strides sized count.toNat a.toNat⟩
  · rw [List.map_map]
    exact List.map_congr_left fun i _ => rfl
  · simp only [List.map_map]
    exact List.map_congr_left fun i member => extent?_element sized room (List.mem_range.1 member)

def grid : EntryIndex :=
  indexOf [intEntry, referring 32 Tag.arrayType "" 16,
    ⟨36, Tag.subrangeType, 0, 2, none, [(Attr.count, .unsigned 2)]⟩,
    referring 48 Tag.arrayType "" 32,
    ⟨52, Tag.subrangeType, 0, 2, none, [(Attr.upperBound, .unsigned 2)]⟩]

def gridVariable : Variable :=
  make (resolve Settings.default grid) 2 "grid" 2 24
    (.located (.expression (.ofOperations [.const 0x2000])))

theorem elements_tile_grid :
    ((resolve Settings.default grid).get? 2).map (·.shape) = some (.array 1 3) ∧
      (resolve Settings.default grid).sizeAt 1 = 8 ∧
      (gridVariable.update (frozenIn .empty)).address? = some 0x2000 ∧
      (gridVariable.update (frozenIn .empty)).parts.map (·.name) = ["[0]", "[1]", "[2]"] ∧
      ∃ extents, (gridVariable.update (frozenIn .empty)).parts.map extent? = extents.map some ∧
        Tiles 0x2000 (0x2000 + 24) extents := by
  have found : (resolve Settings.default grid).get? 2 =
      some (.plain "int[2][3]" 24 (.array 1 3) 48) := by decide +kernel
  have stride : (resolve Settings.default grid).sizeAt 1 = 8 := by decide +kernel
  have laidOut : gridVariable.LaidOut (resolve Settings.default grid) 2 := make_laidOut _ _ _ _ _ _
  have resolved : (gridVariable.updateIn (frozenIn .empty)
    ((none : Option Location.Result).map .ok)).address? = some 0x2000 := rfl
  obtain ⟨names, tiled⟩ := elements_tile found rfl (by rw [stride]; decide) (by rw [stride]; decide)
    laidOut resolved (by decide)
  exact ⟨by rw [found]; rfl, stride, resolved, names, tiled⟩

end Variable

end SourceScope
