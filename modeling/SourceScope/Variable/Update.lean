import SourceScope.Variable.Basic

set_option autoImplicit false

namespace SourceScope

namespace Location

/-- The word that begins `shift` bits into a value, as far as the pieces reach. No value means
that the memory of some piece could not be read. -/
def piecesValue (peek : UInt32 → Option UInt32) : (shift : Nat) → List Piece → Option UInt32
  | _, [] => some 0
  | shift, piece :: rest =>
    if 32 ≤ shift then some 0
    else do
      let word ←
        match piece.place with
        | .address address => peek address
        | .value value => some value
        | .empty => some 0
      let high ← piecesValue peek (shift + 8 * piece.size.toNat) rest
      return (lowBytes piece.size.toNat word <<< UInt32.ofNat shift) ||| high

def Result.value? (peek : UInt32 → Option UInt32) : Result → Option UInt32
  | .address base => peek base
  | .value word => some word
  | .pieces all => piecesValue peek 0 all

def dropBytes (value : UInt32) (bytes : Nat) : UInt32 :=
  if bytes < 4 then value >>> UInt32.ofNat (8 * bytes) else 0

/-- The place of the byte at an offset. Pieces are laid end to end, and where they end past the last
offset they begin again at zero. -/
def pieceAt? (offset : UInt32) : (start : UInt32) → List Piece → Option Result
  | _, [] => none
  | start, piece :: rest =>
    if offset < start + piece.size then
      let inside := offset - start
      match piece.place with
      | .address address => some (.address (address + inside))
      | .value value => some (.value (dropBytes value inside.toNat))
      | .empty => none
    else pieceAt? offset (start + piece.size) rest

end Location

namespace Variable

open Location

abbrev Located := Except Resolution Result

def failure : LocationError → Resolution
  | .noEntryFor _ => .outOfScope
  | cause => .notLocatable cause.message

def ofEvaluation (result : Except LocationError Result) : Located := result.mapError failure

def locatePart (env : Environment) (place : VariablePlace) (whole : Result) : Located :=
  match place, whole with
  | .offset offset, .address base => .ok (.address (base + offset))
  | .offset offset, .value value => .ok (.value (dropBytes value offset.toNat))
  | .offset offset, .pieces pieces =>
    match pieceAt? offset 0 pieces with
    | some found => .ok found
    | none => .error (.notLocatable s!"no piece at offset {offset}")
  | .member e, .address base => ofEvaluation (e.evaluateAt env.surroundings base)
  | .target, whole =>
    match whole.value? env.state.peek with
    | some pointer => .ok (.address pointer)
    | none => .error (.resolved none none)
  | _, _ => .error (.notLocatable "parent is not addressable")

def locate (env : Environment) (place : VariablePlace) (whole : Option Located) : Located :=
  match place, whole with
  | .constant value, _ => .ok (.value value)
  | .nowhere reason, _ => .error (.notLocatable reason)
  | .located location, _ => ofEvaluation (location.evaluate env)
  | _, none => .error (.notLocatable "no parent")
  | _, some (.error resolution) => .error resolution
  | place, some (.ok whole) => locatePart env place whole

def resolutionOf (env : Environment) (size : UInt32) : Located → Resolution
  | .error resolution => resolution
  | .ok found =>
    let address :=
      match found with
      | .address address => some address
      | _ => none
    .resolved address ((found.value? env.state.peek).map (lowBytes size.toNat))

mutual

def updateIn (env : Environment) (whole : Option Located) : Variable → Variable
  | ⟨name, type, size, file, line, place, _, parts⟩ =>
    let located := locate env place whole
    ⟨name, type, size, file, line, place, resolutionOf env size located,
      updateParts env located parts⟩

def updateParts (env : Environment) (whole : Located) : List Variable → List Variable
  | [] => []
  | part :: rest => updateIn env (some whole) part :: updateParts env whole rest

end

def update (env : Environment) (v : Variable) : Variable := v.updateIn env none

mutual

def markOutOfScope : Variable → Variable
  | ⟨name, type, size, file, line, place, _, parts⟩ =>
    ⟨name, type, size, file, line, place, .outOfScope, markAllOutOfScope parts⟩

def markAllOutOfScope : List Variable → List Variable
  | [] => []
  | part :: rest => markOutOfScope part :: markAllOutOfScope rest

end

end Variable

end SourceScope
