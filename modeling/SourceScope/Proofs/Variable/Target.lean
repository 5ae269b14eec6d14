import SourceScope.Proofs.Layout.Members
import SourceScope.Proofs.Variable.Descent
import SourceScope.Proofs.Variable.Width

set_option autoImplicit false

namespace SourceScope

namespace Location

theorem lowBytes_eq_self_iff (size word : UInt32) : lowBytes size.toNat word = word ↔
    (size = 1 → word.toNat < 256) ∧ (size = 2 → word.toNat < 65536) := by
  by_cases one : size = 1
  · subst one
    have cut : (lowBytes 1 word).toNat = word.toNat % 256 := lowBytes_toNat (.inl rfl) word
    rw [← UInt32.toNat_inj, UInt32.toNat_one, cut]
    simp
  by_cases two : size = 2
  · subst two
    have cut : (lowBytes 2 word).toNat = word.toNat % 65536 := lowBytes_toNat (.inr (.inl rfl)) word
    have size : UInt32.toNat 2 = 2 := rfl
    rw [← UInt32.toNat_inj, size, cut]
    simp
  · have uncut : lowBytes size.toNat word = word :=
      lowBytes_of_uncut (fun same => one (UInt32.toNat_inj.1 same))
        (fun same => two (UInt32.toNat_inj.1 same)) word
    simp [uncut, one, two]

end Location

namespace Variable

open Location TypeTable

variable {env : Environment} {types : TypeTable} {depth : Nat} {v : Variable}
  {whole : Option Result} {value : UInt32}

/-- The target of a pointer is where the pointer's value says unless the value was cut. -/
theorem target_address_iff (laidOut : v.LaidOut types (depth + 1)) {type : SourceType}
    {target : TypeId} (found : types.get? v.type = some type)
    (shape : type.shape = .pointer (some target))
    (valued : (v.updateIn env (whole.map .ok)).value? = some value) :
    ∃ location word star, locate env v.place (whole.map .ok) = .ok location ∧
      location.value? env.state.peek = some word ∧
      (v.updateIn env (whole.map .ok)).parts = [star] ∧ star.name = "*" ∧
      star.address? = some word ∧
      (star.address? = some value ↔
        (v.size = 1 → word.toNat < 256) ∧ (v.size = 2 → word.toNat < 65536)) := by
  obtain ⟨location, word, located, read, rfl⟩ := locate_of_value? valued
  have address : locate env .target (some (.ok location)) = .ok (.address word) := by
    simp only [locate, locatePart, read]
  rw [laidOut.updated_parts, partsOf_pointer found shape, located]
  have behind : ((make types depth "*" target (types.sizeAt target) .target).updateIn env
      (some (.ok location))).address? = some word := by
    rw [Variable.address?, resolution_updateIn]
    simp only [make, unevaluated, address, resolutionOf]
  refine ⟨location, word, _, rfl, read, rfl, rfl, behind, ?_⟩
  rw [behind, Option.some.injEq, eq_comm, lowBytes_eq_self_iff]

def halves : Snapshot := (Snapshot.empty.setRegister 0 0x3000).setRegister 1 0x2000

def splitPointer : Variable :=
  make chain 1 "p" 2 4
    (.located (.expression (.ofOperations [.register 0, .piece 2, .register 1, .piece 2])))

theorem target_address_split : ∃ star,
    (splitPointer.update (frozenIn halves)).value? = some 0x20003000 ∧
      (splitPointer.update (frozenIn halves)).parts = [star] ∧
      star.address? = some 0x20003000 := by
  have laidOut : splitPointer.LaidOut chain 1 := make_laidOut _ _ _ _ _ _
  have valued : (splitPointer.updateIn (frozenIn halves)
    ((none : Option Result).map .ok)).value? = some 0x20003000 := rfl
  obtain ⟨location, word, star, -, -, parts, -, -, same⟩ := target_address_iff laidOut rfl rfl valued
  exact ⟨star, valued, parts, same.2 ⟨nofun, nofun⟩⟩

def narrow : EntryIndex :=
  indexOf [intEntry, ⟨24, Tag.pointerType, 0, 1, none,
    [(Attr.byteSize, .unsigned 2), (Attr.type, .reference 16)]⟩]

def narrowPointer : Variable :=
  make (resolve Settings.default narrow) 4 "p" 1 2
    (.located (.expression (.ofOperations [.const 0x2000])))

def beyond : Snapshot := Snapshot.empty.writeWord 0x2000 0x53000

/-- The target is looked for where the two bytes of the pointer and the two behind them say. -/
theorem narrowPointer_strays :
    ((resolve Settings.default narrow).get? 1).map (fun type => (type.shape, type.size)) =
        some (.pointer (some 0), 2) ∧
      (narrowPointer.update (frozenIn beyond)).value? = some 0x3000 ∧
      (narrowPointer.update (frozenIn beyond)).parts.map (fun part => (part.name, part.address?)) =
        [("*", some 0x53000)] := by
  refine ⟨?_, rfl, ?_⟩ <;> decide +kernel

end Variable

end SourceScope
