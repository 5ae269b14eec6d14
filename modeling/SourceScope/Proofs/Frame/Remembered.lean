import Mathlib.Data.List.Induction
import SourceScope.Proofs.Frame.Unwind

set_option autoImplicit false

namespace SourceScope

namespace Frame

/-- How many pairs are open after an instruction. No answer means that there was none to close. -/
def Instruction.depthAfter (depth : Nat) : Instruction → Option Nat
  | .rememberState => some (depth + 1)
  | .restoreState => if depth = 0 then none else some (depth - 1)
  | _ => some depth

def depthAfter (depth : Nat) : List Instruction → Option Nat
  | [] => some depth
  | i :: rest => (i.depthAfter depth).bind (depthAfter · rest)

def Instruction.keepsRule : Instruction → Bool
  | .advance _ | .setLocation _ | .skipped => true
  | _ => false

def opened (common : CommonEntry) (start : UInt32) (initial : List Instruction) : Progress :=
  effects common (0, 0) ⟨start, (0, 0), none⟩ initial

/-- Instructions up to one that restores, split at the one that remembers for it. -/
structure Matched (front before inner : List Instruction) : Prop where
  split : front = before ++ .rememberState :: inner
  closed : depthAfter 0 inner = some 0

theorem depthAfter_append (depth : Nat) (first second : List Instruction) :
    depthAfter depth (first ++ second) =
      (depthAfter depth first).bind (depthAfter · second) := by
  induction first generalizing depth with
  | nil => rfl
  | cons i rest ih =>
    rw [List.cons_append, depthAfter, depthAfter, Option.bind_assoc]
    exact congrArg _ (funext ih)

theorem depthAfter_singleton (depth : Nat) (i : Instruction) :
    depthAfter depth [i] = i.depthAfter depth := by
  simp [depthAfter]

theorem Instruction.depthAfter_inside {i : Instruction} {level deep deeper : Nat}
    (moved : i.depthAfter (level + 1 + deep) = some (level + 1 + deeper)) :
    i.depthAfter deep = some deeper := by
  cases i <;> simp [Instruction.depthAfter] at moved ⊢ <;> omega

theorem Instruction.opens_of_depthAfter {i : Instruction} {depth level deep : Nat}
    (moved : i.depthAfter depth = some (level + 1 + deep)) (outside : depth ≤ level) :
    i = .rememberState ∧ deep = 0 := by
  cases i <;> simp [Instruction.depthAfter] at moved ⊢ <;> omega

theorem exists_open {front : List Instruction} {level deep : Nat}
    (nested : depthAfter 0 front = some (level + 1 + deep)) :
    ∃ before inner, front = before ++ .rememberState :: inner ∧
      depthAfter 0 inner = some deep := by
  -- from the end: the last instruction either opened the pair or stands inside it
  induction front using List.reverseRecOn generalizing deep with
  | nil =>
    simp [depthAfter] at nested
    omega
  | append_singleton rest last ih =>
    rw [depthAfter_append] at nested
    obtain ⟨depth, reached, moved⟩ := Option.bind_eq_some_iff.1 nested
    rw [depthAfter_singleton] at moved
    by_cases outside : depth ≤ level
    · obtain ⟨rfl, rfl⟩ := Instruction.opens_of_depthAfter moved outside
      exact ⟨rest, [], rfl, rfl⟩
    · obtain ⟨within, rfl⟩ := Nat.exists_eq_add_of_lt (Nat.lt_of_not_le outside)
      rw [Nat.add_right_comm] at reached moved
      obtain ⟨before, inner, rfl, closed⟩ := ih reached
      refine ⟨before, inner ++ [last], by simp, ?_⟩
      rw [depthAfter_append, closed, Option.bind_some, depthAfter_singleton]
      exact Instruction.depthAfter_inside moved

section

variable {common : CommonEntry} {start : Rule} {pc : UInt32}

theorem effects_append (p : Progress) (first second : List Instruction) :
    effects common start p (first ++ second) =
      effects common start (effects common start p first) second :=
  List.foldl_append

theorem effects_cons (p : Progress) (i : Instruction) (rest : List Instruction) :
    effects common start p (i :: rest) = effects common start (effect common start p i) rest :=
  rfl

theorem effects_rule_of_keeps {p : Progress} {instructions : List Instruction}
    (keep : ∀ i ∈ instructions, i.keepsRule) :
    (effects common start p instructions).rule = p.rule := by
  induction instructions generalizing p with
  | nil => rfl
  | cons i rest ih =>
    rw [List.forall_mem_cons] at keep
    have kept : (effect common start p i).rule = p.rule := by
      cases i <;> first | rfl | cases keep.1
    rw [effects_cons, ih keep.2, kept]

theorem effects_remembered {p : Progress} {inner : List Instruction} {depth : Nat}
    (closed : depthAfter depth inner = some 0) :
    (effects common start p inner).remembered =
      if 0 < depth ∨ .rememberState ∈ inner then none else p.remembered := by
  induction inner generalizing depth p with
  | nil =>
    cases closed
    rfl
  | cons i rest ih =>
    obtain ⟨between, moved, closed⟩ := Option.bind_eq_some_iff.1 closed
    rw [effects_cons, ih closed]
    cases i with
    | rememberState =>
      cases moved
      simp
    | restoreState => simp_all [Instruction.depthAfter, effect, Instruction.rulesAfter]
    | _ =>
      cases moved
      simp [effect, Instruction.rulesAfter]

theorem effect_rememberState (p : Progress) :
    effect common start p .rememberState = { p with remembered := some p.rule } := rfl

theorem effect_restoreState_rule (p : Progress) :
    (effect common start p .restoreState).rule = p.remembered.getD start := rfl

theorem effects_restored (p : Progress) {before inner later : List Instruction}
    (closed : depthAfter 0 inner = some 0) (quiet : ∀ i ∈ later, i.keepsRule) :
    (effects common start p (before ++ .rememberState :: inner ++ .restoreState :: later)).rule =
      if .rememberState ∈ inner then start else (effects common start p before).rule := by
  rw [effects_append, effects_append, effects_cons, effects_cons, effects_rule_of_keeps quiet,
    effect_restoreState_rule, effects_remembered closed, effect_rememberState]
  by_cases nested : .rememberState ∈ inner <;> simp [nested]

theorem ahead_prefix (location : UInt32) (instructions : List Instruction) :
    ahead common pc location instructions <+: instructions := by
  induction instructions generalizing location with
  | nil => exact List.prefix_rfl
  | cons i rest ih =>
    rw [ahead]
    split
    · exact List.nil_prefix
    · exact List.cons_prefix_cons.2 ⟨rfl, ih _⟩

theorem exists_remember {own front later : List Instruction} {location : UInt32}
    (nested : (depthAfter 0 own).isSome)
    (last : ahead common pc location own = front ++ .restoreState :: later) :
    ∃ before inner, Matched front before inner := by
  have within : ahead common pc location own <+: own := ahead_prefix location own
  obtain ⟨behind, whole⟩ := within
  rw [← whole, last, List.append_assoc, depthAfter_append] at nested
  cases reached : depthAfter 0 front with
  | none => simp [reached] at nested
  | some depth =>
    cases depth with
    | zero => simp [reached, depthAfter, Instruction.depthAfter] at nested
    | succ level =>
      have open_ : depthAfter 0 front = some (level + 1 + 0) := reached
      obtain ⟨before, inner, split, closed⟩ := exists_open open_
      exact ⟨before, inner, split, closed⟩

end

end Frame

namespace FrameSection

open SourceScope.Frame

variable {table : FrameSection} {pc : UInt32} {d : Description} {c : CommonEntry}
  {initial own : List Frame.Instruction}

theorem unwind_opened (covering : table.covering? pc = some d)
    (known : table.common? d.common = some c)
    (opens : EncodesAll table.order initial c.instructions)
    (complete : passesIn c pc d.start initial = false)
    (continues : Opens table.order own (passesIn c pc (opened c d.start initial).location own)
      d.instructions) :
    table.unwind pc = .ok (effects c (opened c d.start initial).rule (opened c d.start initial)
      (ahead c pc (opened c d.start initial).location own)).row := by
  have fresh : Matches (Replay.initially d.start) (0, 0) ⟨d.start, (0, 0), none⟩ :=
    ⟨rfl, rfl, rfl⟩
  obtain ⟨state, ran, tracked⟩ := run_encoded fresh opens [] (.inl rfl)
  rw [complete, List.append_nil] at ran
  rw [ahead_eq_self complete, ← opened] at tracked
  have restarted : Matches { state with start := state.current } (opened c d.start initial).rule
      (opened c d.start initial) :=
    ⟨tracked.current, by rw [tracked.current]; rfl, tracked.remembered⟩
  obtain ⟨bytes, rest, encoded, data, ends⟩ := continues
  obtain ⟨final, finished, tracked⟩ := run_encoded restarted encoded rest ends
  rw [← data] at finished
  unfold unwind
  simp [covering, known, ran, finished, bind, Except.bind, pure, Except.pure, tracked.current]

/-- Just behind an instruction that restores, the rule is the one that was remembered if no other
pair stands between the two, and the rule of the initial instructions if one does. -/
theorem unwind_restored (covering : table.covering? pc = some d)
    (known : table.common? d.common = some c)
    (opens : EncodesAll table.order initial c.instructions)
    (complete : passesIn c pc d.start initial = false)
    (continues : Opens table.order own (passesIn c pc (opened c d.start initial).location own)
      d.instructions)
    (nested : (depthAfter 0 own).isSome) {front later : List Frame.Instruction}
    (last : ahead c pc (opened c d.start initial).location own =
      front ++ .restoreState :: later)
    (quiet : ∀ i ∈ later, i.keepsRule) :
    (∃ before inner, Matched front before inner) ∧ ∃ row, table.unwind pc = .ok row ∧
      ∀ before inner, Matched front before inner → (row.register, row.offset) =
        if .rememberState ∈ inner then (opened c d.start initial).rule
        else (effects c (opened c d.start initial).rule (opened c d.start initial) before).rule := by
  refine ⟨exists_remember nested last, _,
    unwind_opened covering known opens complete continues, ?_⟩
  rintro before inner ⟨rfl, closed⟩
  rw [last]
  exact effects_restored _ closed quiet

def nestedInner : List Frame.Instruction :=
  [.defineOffset 16, .rememberState, .defineOffset 24, .advance 2, .restoreState, .advance 2]

def nestedPairs : List Frame.Instruction :=
  .defineOffset 8 :: .advance 2 :: .rememberState :: nestedInner ++ [.restoreState]

def nestedCommon : CommonEntry := ⟨0, 1, -4, 14, [0x0c, 13, 0]⟩

def nestedDescription : Description where
  offset := 16
  common := 0
  start := 0x3000
  length := 16
  instructions := [0x0e, 8, 0x42, 0x0a, 0x0e, 16, 0x0a, 0x0e, 24, 0x42, 0x0b, 0x42, 0x0b]

def nestedTable : FrameSection := ⟨.little, [nestedCommon], [nestedDescription]⟩

theorem nestedPairs_encoded : EncodesAll .little nestedPairs nestedDescription.instructions := by
  have offset (byte : UInt8) (final : byte.toNat < 128) :
      Encodes .little (.defineOffset (Int64.ofInt byte.toNat)) [0x0e, byte] :=
    .defineOffset (.single byte final)
  have advance : Encodes .little (.advance 2) [0x42] := .advance 2 (by decide)
  exact .cons (offset 8 (by decide)) (.cons advance (.cons .rememberState
    (.cons (offset 16 (by decide)) (.cons .rememberState (.cons (offset 24 (by decide))
    (.cons advance (.cons .restoreState (.cons advance (.cons .restoreState .nil)))))))))

theorem nestedCommon_encoded :
    EncodesAll .little [.defineAddress 13 0] nestedCommon.instructions :=
  .cons (.defineAddress (.single 13 (by decide)) (.single 0 (by decide))) .nil

theorem nestedPairs_continues (reached : Bool) :
    Opens .little nestedPairs reached nestedDescription.instructions :=
  ⟨_, [], nestedPairs_encoded, rfl, .inl rfl⟩

theorem unwind_restored_nestedPairs : depthAfter 0 nestedPairs = some 0 ∧
    (∃ row, nestedTable.unwind 0x3004 = .ok row ∧ (row.register, row.offset) = (13, 16)) ∧
    ∃ row, nestedTable.unwind 0x3006 = .ok row ∧ (row.register, row.offset) = (13, 0) := by
  have known : nestedTable.common? 0 = some nestedCommon := rfl
  refine ⟨rfl, ?_, ?_⟩
  · have covering : nestedTable.covering? 0x3004 = some nestedDescription := rfl
    have last : ahead nestedCommon 0x3004 0x3000 nestedPairs =
        [.defineOffset 8, .advance 2, .rememberState, .defineOffset 16, .rememberState,
          .defineOffset 24, .advance 2] ++ .restoreState :: [] := rfl
    obtain ⟨-, row, ran, rule⟩ := unwind_restored covering known nestedCommon_encoded rfl
      (nestedPairs_continues _) rfl last nofun
    exact ⟨row, ran, rule [.defineOffset 8, .advance 2, .rememberState, .defineOffset 16]
      [.defineOffset 24, .advance 2] ⟨rfl, rfl⟩⟩
  · have covering : nestedTable.covering? 0x3006 = some nestedDescription := rfl
    have last : ahead nestedCommon 0x3006 0x3000 nestedPairs =
        (.defineOffset 8 :: .advance 2 :: .rememberState :: nestedInner) ++ .restoreState :: [] :=
      rfl
    obtain ⟨-, row, ran, rule⟩ := unwind_restored covering known nestedCommon_encoded rfl
      (nestedPairs_continues _) rfl last nofun
    exact ⟨row, ran, rule [.defineOffset 8, .advance 2] nestedInner ⟨rfl, rfl⟩⟩

/-- The outer pair begins at offset 8 and gives back the offset of the initial instructions. -/
theorem nestedPairs_forgets :
    EncodesAll .little nestedPairs nestedDescription.instructions ∧
    depthAfter 0 nestedPairs = some 0 ∧
    Matched (.defineOffset 8 :: .advance 2 :: .rememberState :: nestedInner)
      [.defineOffset 8, .advance 2] nestedInner ∧
    nestedTable.unwind 0x3000 = .ok ⟨0x3000, 13, 8⟩ ∧
    nestedTable.unwind 0x3006 = .ok ⟨0x3006, 13, 0⟩ := by
  have known : nestedTable.common? 0 = some nestedCommon := rfl
  have first : nestedTable.covering? 0x3000 = some nestedDescription := rfl
  have last : nestedTable.covering? 0x3006 = some nestedDescription := rfl
  exact ⟨nestedPairs_encoded, rfl, ⟨rfl, rfl⟩,
    unwind_opened first known nestedCommon_encoded rfl (nestedPairs_continues _),
    unwind_opened last known nestedCommon_encoded rfl (nestedPairs_continues _)⟩

end FrameSection

end SourceScope
