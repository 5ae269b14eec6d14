import Mathlib.Data.List.Perm.Subperm
import Mathlib.Logic.Function.Iterate
import SourceScope.Proofs.Entry.Nesting

set_option autoImplicit false

namespace SourceScope.EntryIndex

/-- A search outward from an offset: the entries that it passes, and the first one that it stops at,
if there is one before the outermost. It has no end where entries that it passes are around
themselves. -/
inductive Searches (index : EntryIndex) (stops : Entry → Bool) :
    Option Nat → List Entry → Option Entry → Prop where
  | outermost {offset : Option Nat} (beyond : offset.bind index.entry? = none) :
    Searches index stops offset [] none
  | stop {offset : Option Nat} {entry : Entry} (here : offset.bind index.entry? = some entry)
    (stopped : stops entry = true) : Searches index stops offset [] (some entry)
  | onward {offset : Option Nat} {entry : Entry} {passed : List Entry} {found : Option Entry}
    (here : offset.bind index.entry? = some entry) (missed : stops entry = false)
    (later : Searches index stops entry.parent passed found) :
    Searches index stops offset (entry :: passed) found

def Ends (index : EntryIndex) (stops : Entry → Bool) (offset : Option Nat) : Prop :=
  ∃ passed found, index.Searches stops offset passed found

variable {index : EntryIndex} {stops : Entry → Bool} {offset : Option Nat} {passed : List Entry}
  {found : Option Entry}

theorem offset_of_known {entry : Entry} (here : offset.bind index.entry? = some entry) :
    offset = some entry.offset ∧ entry ∈ index.pushed := by
  obtain ⟨offset, rfl, known⟩ := Option.bind_eq_some_iff.1 here
  have same := List.find?_some known
  rw [beq_iff_eq] at same
  exact ⟨congrArg some same.symm, List.mem_of_find?_eq_some known⟩

theorem Searches.unique (first : index.Searches stops offset passed found) {other : List Entry}
    {result : Option Entry} (second : index.Searches stops offset other result) :
    other = passed ∧ result = found := by
  induction first generalizing other with
  | outermost beyond =>
    cases second with
    | outermost => exact ⟨rfl, rfl⟩
    | stop here | onward here => cases beyond.symm.trans here
  | stop here stopped =>
    cases second with
    | outermost beyond => cases here.symm.trans beyond
    | stop again =>
      cases here.symm.trans again
      exact ⟨rfl, rfl⟩
    | onward again missed =>
      cases here.symm.trans again
      cases stopped.symm.trans missed
  | onward here missed _ ih =>
    cases second with
    | outermost beyond => cases here.symm.trans beyond
    | stop again stopped =>
      cases here.symm.trans again
      cases stopped.symm.trans missed
    | onward again _ later =>
      cases here.symm.trans again
      obtain ⟨rfl, rfl⟩ := ih later
      exact ⟨rfl, rfl⟩

theorem Searches.from_passed (searches : index.Searches stops offset passed found) {entry : Entry}
    (member : entry ∈ passed) : ∃ later, (entry :: later) <:+ passed ∧
      index.Searches stops (some entry.offset) (entry :: later) found := by
  induction searches with
  | outermost | stop => cases member
  | onward here missed later ih =>
    rcases List.mem_cons.1 member with rfl | inside
    · obtain ⟨rfl, -⟩ := offset_of_known here
      exact ⟨_, List.suffix_rfl, .onward here missed later⟩
    · obtain ⟨rest, behind, again⟩ := ih inside
      exact ⟨rest, behind.trans (List.suffix_cons ..), again⟩

theorem Searches.missed (searches : index.Searches stops offset passed found) :
    ∀ entry ∈ passed, entry ∈ index.pushed ∧ stops entry = false := by
  induction searches with
  | outermost | stop => simp
  | onward here missed _ ih =>
    exact List.forall_mem_cons.2 ⟨⟨(offset_of_known here).2, missed⟩, ih⟩

theorem Searches.stopped (searches : index.Searches stops offset passed found) :
    ∀ entry ∈ found, entry ∈ index.pushed ∧ stops entry = true := by
  induction searches with
  | outermost => simp
  | stop here stopped =>
    rintro _ ⟨rfl⟩
    exact ⟨(offset_of_known here).2, stopped⟩
  | onward _ _ _ ih => exact ih

theorem Searches.nodup (searches : index.Searches stops offset passed found) : passed.Nodup := by
  induction searches with
  | outermost | stop => exact List.nodup_nil
  | @onward _ entry passed found here missed later ih =>
    refine List.nodup_cons.2 ⟨fun again => ?_, ih⟩
    obtain ⟨rest, behind, repeated⟩ := later.from_passed again
    obtain ⟨rfl, -⟩ := offset_of_known here
    have whole := Searches.onward here missed later
    have shorter := behind.length_le
    rw [(whole.unique repeated).1, List.length_cons] at shorter
    exact Nat.not_succ_le_self _ shorter

theorem Searches.length_le (searches : index.Searches stops offset passed found) :
    (passed ++ found.toList).length ≤ index.size := by
  have distinct : (passed ++ found.toList).Nodup := by
    refine List.nodup_append'.2 ⟨searches.nodup, by cases found <;> simp, ?_⟩
    intro entry member atEnd
    have missed := (searches.missed entry member).2
    rw [(searches.stopped entry (Option.mem_toList.1 atEnd)).2] at missed
    cases missed
  have among : (passed ++ found.toList) ⊆ index.pushed := by
    intro entry member
    rcases List.mem_append.1 member with inside | atEnd
    · exact (searches.missed entry inside).1
    · exact (searches.stopped entry (Option.mem_toList.1 atEnd)).1
  exact (distinct.subperm among).length_le

theorem Searches.find?_ancestorsFrom (searches : index.Searches stops offset passed found)
    {steps : Nat} (enough : (passed ++ found.toList).length ≤ steps) :
    (index.ancestorsFrom steps offset).find? stops = found := by
  induction searches generalizing steps with
  | outermost beyond =>
    cases steps with
    | zero => rfl
    | succ steps => simp [ancestorsFrom, beyond]
  | stop here stopped =>
    obtain ⟨less, rfl⟩ := Nat.exists_eq_add_one.2 (Nat.lt_of_lt_of_le (Nat.succ_pos 0) enough)
    simp [ancestorsFrom, here, stopped]
  | @onward _ _ passed found here missed _ ih =>
    rw [List.cons_append, List.length_cons] at enough
    obtain ⟨less, rfl⟩ := Nat.exists_eq_add_one.2 (Nat.lt_of_lt_of_le (Nat.succ_pos _) enough)
    simp [ancestorsFrom, here, missed, ih (Nat.le_of_succ_le_succ enough)]

theorem Searches.find?_ancestors {entry : Entry} (known : index.entry? entry.offset = some entry)
    (searches : index.Searches stops entry.parent passed found) :
    (index.ancestors entry.offset).find? stops = found := by
  rw [ancestors, known, Option.bind_some]
  exact searches.find?_ancestorsFrom searches.length_le

theorem exists_of_not_ends (endless : ¬index.Ends stops offset) :
    ∃ entry, offset.bind index.entry? = some entry ∧ stops entry = false ∧
      ¬index.Ends stops entry.parent := by
  cases here : offset.bind index.entry? with
  | none => exact absurd ⟨_, _, .outermost here⟩ endless
  | some entry =>
    cases missed : stops entry with
    | true => exact absurd ⟨_, _, .stop here missed⟩ endless
    | false =>
      refine ⟨entry, rfl, missed, fun ends => endless ?_⟩
      obtain ⟨passed, found, later⟩ := ends
      exact ⟨_, _, .onward here missed later⟩

/-- A search that does not come to an end passes one entry after another for ever. -/
theorem not_ends_iff : ¬index.Ends stops offset ↔
    ∃ walk : Nat → Entry, offset.bind index.entry? = some (walk 0) ∧
      ∀ n, stops (walk n) = false ∧ (walk n).parent.bind index.entry? = some (walk (n + 1)) := by
  constructor
  · intro endless
    obtain ⟨first, here, missed, beyond⟩ := exists_of_not_ends endless
    let Endless := { entry : Entry // stops entry = false ∧ ¬index.Ends stops entry.parent }
    have onward (entry : Endless) :
        ∃ next : Endless, entry.1.parent.bind index.entry? = some next.1 := by
      obtain ⟨next, there, passed, further⟩ := exists_of_not_ends entry.2.2
      exact ⟨⟨next, passed, further⟩, there⟩
    choose next there using onward
    let walk (n : Nat) : Endless := Nat.iterate next n ⟨first, missed, beyond⟩
    refine ⟨fun n => (walk n).1, here, fun n => ⟨(walk n).2.1, ?_⟩⟩
    have step : walk (n + 1) = next (walk n) := Function.iterate_succ_apply' ..
    have further := there (walk n)
    rwa [← step] at further
  · rintro ⟨walk, here, onward⟩ ⟨passed, found, searches⟩
    induction searches generalizing walk with
    | outermost beyond => cases beyond.symm.trans here
    | stop at_ stopped =>
      cases at_.symm.trans here
      cases stopped.symm.trans (onward 0).1
    | onward at_ _ _ ih =>
      cases at_.symm.trans here
      exact ih (fun n => walk (n + 1)) (onward 0).2 fun n => onward (n + 1)

theorem Climbs.ends {chain : List Entry} (climbs : index.Climbs offset chain)
    (stops : Entry → Bool) : index.Ends stops offset := by
  induction climbs with
  | root => exact ⟨_, _, .outermost rfl⟩
  | @step offset entry rest here _ ih =>
    cases missed : stops entry with
    | true => exact ⟨_, _, .stop here missed⟩
    | false =>
      obtain ⟨passed, found, later⟩ := ih
      exact ⟨_, _, .onward here missed later⟩

/-- Where no offset is pushed twice, every search comes to an end. -/
theorem Nested.ends {history : History} (nested : index.Nested history) {entry : Entry}
    (listed : entry ∈ index.entries) (stops : Entry → Bool) :
    index.Ends stops entry.parent ∧ index.Ends stops (some entry.offset) := by
  rw [nested.entries] at listed
  obtain ⟨climbs, -⟩ := nested.ancestors entry listed
  exact ⟨climbs.ends stops, (Climbs.step (nested.found entry listed) climbs).ends stops⟩

end SourceScope.EntryIndex
