import SourceScope.Frame.Unwind
import SourceScope.Proofs.Frame.Encoding

set_option autoImplicit false

namespace SourceScope

namespace Frame

abbrev Rule := UInt16 × Int64

structure Progress where
  location : UInt32
  rule : Rule
  remembered : Option Rule

def Progress.row (p : Progress) : Row := ⟨p.location, p.rule.1, p.rule.2⟩

def Instruction.destination? (common : CommonEntry) (location : UInt32) :
    Instruction → Option UInt32
  | .advance units => some (location + units * common.codeAlign)
  | .setLocation address => some address
  | _ => none

def Instruction.locationAfter (common : CommonEntry) (location : UInt32) (i : Instruction) :
    UInt32 :=
  (i.destination? common location).getD location

def Instruction.passes (common : CommonEntry) (pc location : UInt32) (i : Instruction) : Bool :=
  (i.destination? common location).any (pc < ·)

/-- What an instruction does to the rule; `start` is the rule of the initial instructions. -/
def Instruction.rulesAfter (common : CommonEntry) (start rule : Rule) (remembered : Option Rule) :
    Instruction → Rule × Option Rule
  | .defineAddress register offset => ((register, offset), remembered)
  | .defineFactored register units => ((register, units * common.dataAlign), remembered)
  | .defineRegister register => ((register, rule.2), remembered)
  | .defineOffset offset => ((rule.1, offset), remembered)
  | .defineOffsetFactored units => ((rule.1, units * common.dataAlign), remembered)
  | .rememberState => (rule, some rule)
  | .restoreState => (remembered.getD start, none)
  | .advance _ | .setLocation _ | .skipped | .unfollowed _ => (rule, remembered)

def effect (common : CommonEntry) (start : Rule) (p : Progress) (i : Instruction) : Progress :=
  let (rule, remembered) := i.rulesAfter common start p.rule p.remembered
  ⟨i.locationAfter common p.location, rule, remembered⟩

def effects (common : CommonEntry) (start : Rule) (p : Progress) (instructions : List Instruction) :
    Progress :=
  instructions.foldl (effect common start) p

def ahead (common : CommonEntry) (pc : UInt32) : UInt32 → List Instruction → List Instruction
  | _, [] => []
  | location, i :: rest =>
    if i.passes common pc location then []
    else i :: ahead common pc (i.locationAfter common location) rest

def passesIn (common : CommonEntry) (pc : UInt32) : UInt32 → List Instruction → Bool
  | _, [] => false
  | location, i :: rest =>
    i.passes common pc location || passesIn common pc (i.locationAfter common location) rest

def rowAt (common : CommonEntry) (start pc : UInt32) (initial own : List Instruction) : Row :=
  let opened := effects common (0, 0) ⟨start, (0, 0), none⟩ (ahead common pc start initial)
  if passesIn common pc start initial then opened.row
  else (effects common opened.rule opened (ahead common pc opened.location own)).row

inductive EncodesAll (order : ByteOrder) : List Instruction → List UInt8 → Prop where
  | nil : EncodesAll order [] []
  | cons {i : Instruction} {rest : List Instruction} {front back : List UInt8}
      (first : Encodes order i front) (later : EncodesAll order rest back) :
      EncodesAll order (i :: rest) (front ++ back)

section

variable {common : CommonEntry} {pc : UInt32}

theorem ahead_eq_self {location : UInt32} {instructions : List Instruction}
    (stays : passesIn common pc location instructions = false) :
    ahead common pc location instructions = instructions := by
  induction instructions generalizing location with
  | nil => rfl
  | cons i rest ih =>
    rw [passesIn, Bool.or_eq_false_iff] at stays
    rw [ahead, stays.1, ih stays.2]
    rfl

theorem locationAfter_le {location : UInt32} {i : Instruction}
    (stays : i.passes common pc location = false) (before : location ≤ pc) :
    i.locationAfter common location ≤ pc := by
  unfold Instruction.passes at stays
  unfold Instruction.locationAfter
  cases moves : i.destination? common location with
  | none => exact before
  | some target =>
    rw [moves, Option.any_some, decide_eq_false_iff_not] at stays
    exact UInt32.not_lt.1 stays

theorem effects_location_le (start : Rule) {p : Progress} (instructions : List Instruction)
    (before : p.location ≤ pc) :
    (effects common start p (ahead common pc p.location instructions)).location ≤ pc := by
  induction instructions generalizing p with
  | nil => exact before
  | cons i rest ih =>
    rw [ahead]
    split
    · exact before
    next stays =>
      exact @ih (effect common start p i) (locationAfter_le (Bool.eq_false_iff.2 stays) before)

theorem rowAt_location_le {start : UInt32} (initial own : List Instruction) (before : start ≤ pc) :
    (rowAt common start pc initial own).location ≤ pc := by
  have opened := @effects_location_le common pc (0, 0) ⟨start, (0, 0), none⟩ initial before
  unfold rowAt
  simp only
  split
  · exact opened
  · exact effects_location_le _ own opened

def relevant (instructions : List Instruction) : List Instruction :=
  instructions.filter (· ≠ .skipped)

theorem ahead_relevant (location : UInt32) (instructions : List Instruction) :
    ahead common pc location (relevant instructions) =
      relevant (ahead common pc location instructions) := by
  induction instructions generalizing location with
  | nil => rfl
  | cons i rest ih =>
    by_cases skipped : i = .skipped
    · subst skipped
      exact ih location
    · rw [relevant, List.filter_cons_of_pos (by simpa using skipped), ahead, ahead]
      split
      · rfl
      · rw [relevant, List.filter_cons_of_pos (by simpa using skipped)]
        exact congrArg _ (ih _)

theorem passesIn_relevant (location : UInt32) (instructions : List Instruction) :
    passesIn common pc location (relevant instructions) =
      passesIn common pc location instructions := by
  induction instructions generalizing location with
  | nil => rfl
  | cons i rest ih =>
    by_cases skipped : i = .skipped
    · subst skipped
      exact ih location
    · rw [relevant, List.filter_cons_of_pos (by simpa using skipped), passesIn, passesIn]
      exact congrArg _ (ih _)

theorem effects_relevant (start : Rule) (p : Progress) (instructions : List Instruction) :
    effects common start p (relevant instructions) = effects common start p instructions := by
  induction instructions generalizing p with
  | nil => rfl
  | cons i rest ih =>
    by_cases skipped : i = .skipped
    · subst skipped
      exact ih p
    · rw [relevant, List.filter_cons_of_pos (by simpa using skipped)]
      exact ih (effect common start p i)

theorem rowAt_relevant (start : UInt32) (initial own : List Instruction) :
    rowAt common start pc (relevant initial) (relevant own) =
      rowAt common start pc initial own := by
  simp only [rowAt, ahead_relevant, effects_relevant, passesIn_relevant]

-- What a replay is at, as progress; `start` is the rule that it can go back to.
structure Matches (state : Replay) (start : Rule) (p : Progress) : Prop where
  current : state.current = p.row
  start : (state.start.register, state.start.offset) = start
  remembered : state.remembered.map (fun row => (row.register, row.offset)) = p.remembered

theorem step_reached {state : Replay} {start : Rule} {p : Progress} (tracked : Matches state start p)
    {i : Instruction} (passes : i.passes common pc p.location = true) :
    Replay.step common pc state i = .ok .reached := by
  have location : state.current.location = p.location := by rw [tracked.current]; rfl
  cases i <;> simp [Instruction.passes, Instruction.destination?] at passes
  all_goals simp [Replay.step, Replay.moveTo, location, passes]

theorem step_applied {state : Replay} {start : Rule} {p : Progress} (tracked : Matches state start p)
    {i : Instruction} (followed : ∀ rule, i ≠ .unfollowed rule)
    (stays : i.passes common pc p.location = false) :
    ∃ next, Replay.step common pc state i = .ok (.applied next) ∧
      Matches next start (effect common start p i) := by
  obtain ⟨current, first, kept⟩ := state
  obtain ⟨rfl, rfl, remembered⟩ := tracked
  cases i with
  | advance units =>
    simp only [Instruction.passes, Instruction.destination?, Option.any_some,
      decide_eq_false_iff_not] at stays
    exact ⟨_, congrArg Except.ok (if_neg stays), rfl, rfl, remembered⟩
  | setLocation address =>
    simp only [Instruction.passes, Instruction.destination?, Option.any_some,
      decide_eq_false_iff_not] at stays
    exact ⟨_, congrArg Except.ok (if_neg stays), rfl, rfl, remembered⟩
  | rememberState => exact ⟨_, rfl, rfl, rfl, rfl⟩
  | restoreState =>
    refine ⟨_, rfl, ?_, rfl, rfl⟩
    simp only [effect, Instruction.rulesAfter, ← remembered]
    cases kept <;> rfl
  | unfollowed rule => exact absurd rfl (followed rule)
  | defineAddress | defineFactored | defineRegister | defineOffset | defineOffsetFactored
  | skipped => exact ⟨_, rfl, rfl, rfl, remembered⟩

theorem Encodes.followed {order : ByteOrder} {i : Instruction} {bytes : List UInt8}
    (encodes : Encodes order i bytes) (rule : UnfollowedRule) : i ≠ .unfollowed rule := by
  rintro rfl
  cases encodes

def Opens (order : ByteOrder) (instructions : List Instruction) (reached : Bool)
    (data : List UInt8) : Prop :=
  ∃ bytes rest, EncodesAll order instructions bytes ∧ data = bytes ++ rest ∧
    (rest = [] ∨ reached = true)

-- Induction on the instructions. The rest of the bytes is met only after a step that ends the replay.
theorem run_encoded {order : ByteOrder} {state : Replay} {start : Rule} {p : Progress}
    (tracked : Matches state start p) {instructions : List Instruction} {bytes : List UInt8}
    (encoded : EncodesAll order instructions bytes) (rest : List UInt8)
    (ends : rest = [] ∨ passesIn common pc p.location instructions = true) :
    ∃ final, Replay.run order common pc state (bytes ++ rest) =
        .ok (final, !passesIn common pc p.location instructions) ∧
      Matches final start (effects common start p (ahead common pc p.location instructions)) := by
  induction encoded generalizing state p with
  | nil =>
    obtain rfl : rest = [] := by simpa [passesIn] using ends
    refine ⟨state, ?_, tracked⟩
    rw [Replay.run]
    rfl
  | @cons i later front back first encoded ih =>
    have read := Instruction.reader_encodes first (back ++ rest)
    obtain ⟨opcode, operands, rfl⟩ := Instruction.encodes_cons first
    rw [List.append_assoc, Replay.run, if_neg (by simp), read]
    simp only
    rw [ahead, passesIn]
    cases passes : i.passes common pc p.location with
    | true =>
      rw [step_reached tracked passes]
      exact ⟨state, rfl, tracked⟩
    | false =>
      obtain ⟨next, applied, tracked⟩ := step_applied tracked first.followed passes
      rw [passesIn, passes, Bool.false_or] at ends
      obtain ⟨final, run, tracked⟩ := ih tracked ends
      refine ⟨final, ?_, tracked⟩
      have shorter : (back ++ rest).length < (opcode :: operands ++ (back ++ rest)).length := by
        simp only [List.cons_append, List.length_cons, List.length_append]
        omega
      rw [applied]
      simp only
      rw [dif_pos shorter]
      exact run

theorem passesIn_append {start : Rule} {p : Progress} (initial own : List Instruction) :
    passesIn common pc p.location (initial ++ own) =
      (passesIn common pc p.location initial ||
        passesIn common pc (effects common start p initial).location own) := by
  induction initial generalizing p with
  | nil => rfl
  | cons i rest ih =>
    rw [List.cons_append, passesIn, passesIn, Bool.or_assoc]
    exact congrArg _ (@ih (effect common start p i))

end

end Frame

namespace FrameSection

open SourceScope.Frame

theorem covering?_start_le {table : FrameSection} {pc : UInt32} {d : Description}
    (covering : table.covering? pc = some d) : d.start ≤ pc := by
  have inside := List.find?_some covering
  rw [Description.contains, Bool.and_eq_true, decide_eq_true_eq] at inside
  exact inside.1

/-- Unwinding gives the row of the instructions ahead of the address. Bytes behind the first
instruction that moves past it do not matter, nor do rules for other registers. -/
theorem unwind_encoded {table : FrameSection} {pc : UInt32} {d : Description} {c : CommonEntry}
    (covering : table.covering? pc = some d) (known : table.common? d.common = some c)
    {initial own : List Frame.Instruction}
    (opens : Opens table.order initial (passesIn c pc d.start initial) c.instructions)
    (continues : Opens table.order own (passesIn c pc d.start (initial ++ own)) d.instructions) :
    table.unwind pc = .ok (rowAt c d.start pc initial own) ∧
      rowAt c d.start pc (relevant initial) (relevant own) = rowAt c d.start pc initial own ∧
      (rowAt c d.start pc initial own).location ≤ pc := by
  refine ⟨?_, rowAt_relevant d.start initial own,
    rowAt_location_le initial own (covering?_start_le covering)⟩
  obtain ⟨bytes, rest, encoded, data, ends⟩ := opens
  have tracked : Matches (Replay.initially d.start) (0, 0) ⟨d.start, (0, 0), none⟩ :=
    ⟨rfl, rfl, rfl⟩
  obtain ⟨opened, run, tracked⟩ := run_encoded tracked encoded rest ends
  rw [← data] at run
  unfold unwind rowAt
  simp only [covering, known, run, bind, Except.bind, pure, Except.pure]
  cases passes : passesIn c pc d.start initial with
  | true => simp [tracked.current]
  | false =>
    rw [ahead_eq_self passes] at tracked ⊢
    obtain ⟨bytes, rest, encoded, data, ends⟩ := continues
    rw [@passesIn_append c pc (0, 0) ⟨d.start, (0, 0), none⟩, passes, Bool.false_or] at ends
    -- the rule of the initial instructions is what `restoreState` goes back to from here on
    have restarted : Matches { opened with start := opened.current }
        (effects c (0, 0) ⟨d.start, (0, 0), none⟩ initial).rule
        (effects c (0, 0) ⟨d.start, (0, 0), none⟩ initial) :=
      ⟨tracked.current, by rw [tracked.current]; rfl, tracked.remembered⟩
    obtain ⟨final, run, tracked⟩ := run_encoded restarted encoded rest ends
    rw [← data] at run
    simp [run, tracked.current]

def pushing : FrameSection :=
  ⟨.little, [⟨0, 1, -4, 14, [0x0c, 13, 0]⟩],
    [⟨20, 0, 0x100, 16, [0x44, 0x0e, 8, 0x8e, 1, 0x48, 0x16]⟩]⟩

theorem unwind_pushing : pushing.unwind 0x106 = .ok ⟨0x104, 13, 8⟩ := by
  have number (byte : UInt8) (final : byte.toNat < 128) : Leb128.Unsigned64 byte.toNat [byte] :=
    ⟨.last byte final, by simp, Nat.lt_trans byte.toNat_lt (by decide)⟩
  have opens : Opens .little [.defineAddress 13 0] false [0x0c, 13, 0] :=
    ⟨_, [], .cons (.defineAddress (number 13 (by decide)) (number 0 (by decide))) .nil, rfl, .inl rfl⟩
  have continues : Opens .little [.advance 4, .defineOffset 8, .skipped, .advance 8] true
      [0x44, 0x0e, 8, 0x8e, 1, 0x48, 0x16] :=
    ⟨_, [0x16], .cons (.advance 4 (by decide)) (.cons (.defineOffset (number 8 (by decide)))
      (.cons (.offset 14 (by decide) (number 1 (by decide))) (.cons (.advance 8 (by decide)) .nil))),
      rfl, .inr rfl⟩
  have covering : pushing.covering? 0x106 =
    some ⟨20, 0, 0x100, 16, [0x44, 0x0e, 8, 0x8e, 1, 0x48, 0x16]⟩ := rfl
  have known : pushing.common? 0 = some ⟨0, 1, -4, 14, [0x0c, 13, 0]⟩ := rfl
  exact (unwind_encoded covering known opens continues).1

end FrameSection

end SourceScope
