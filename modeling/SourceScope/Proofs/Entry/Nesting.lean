import Mathlib.Data.List.Nodup
import SourceScope.Entry.Index

set_option autoImplicit false

namespace SourceScope.EntryIndex

inductive Push where
  | unit (unit : CompileUnit)
  | entry (unit : Nat) (entry : Entry)

def push (index : EntryIndex) : Push → EntryIndex
  | .unit unit => index.pushUnit unit
  | .entry unit entry => (index.tryPush unit entry).1

def build (pushes : List Push) : EntryIndex := pushes.foldl push .empty

structure History where
  -- Offsets of the units.
  units : List Nat
  -- Entries accepted since the latest unit, and all before them, the latest first.
  recent : List Entry
  past : List Entry

namespace History

def empty : History := ⟨[], [], []⟩

def around? (history : History) (depth : Nat) : Option Entry :=
  history.recent.find? (·.depth < depth)

def push (history : History) : Push → History
  | .unit unit => ⟨unit.offset :: history.units, [], history.recent ++ history.past⟩
  | .entry unit entry =>
    if unit ∈ history.units then
      let parent := (history.around? entry.depth).map (·.offset)
      { history with recent := { entry with unit, parent } :: history.recent }
    else history

def of (pushes : List Push) : History := pushes.foldl push .empty

def accepted (history : History) : List Entry := (history.recent ++ history.past).reverse

def Distinct (history : History) : Prop := (history.accepted.map (·.offset)).Nodup

instance : DecidablePred Distinct := fun history =>
  inferInstanceAs (Decidable (history.accepted.map (·.offset)).Nodup)

end History

structure Follows (index : EntryIndex) (history : History) : Prop where
  pushed : index.pushed = history.recent ++ history.past
  units : ∀ unit : Nat, (index.unit? unit).isSome ↔ unit ∈ history.units
  -- The entries around the latest one are enough to find every later parent.
  parents : ∀ depth : Nat,
    (index.open_.dropWhile fun (opened, _) => depth ≤ opened).head?.map (·.2) =
      (history.around? depth).map (·.offset)
  children : ∀ offset : Nat, index.children offset =
    (history.accepted.filter (·.parent = some offset)).map (·.offset)

theorem isSome_find?_insertUnit (unit : CompileUnit) (units : List CompileUnit) (offset : Nat) :
    ((insertUnit unit units).find? (·.offset == offset)).isSome ↔
      unit.offset = offset ∨ (units.find? (·.offset == offset)).isSome := by
  induction units with
  | nil => simp [insertUnit]
  | cons first rest ih =>
    unfold insertUnit
    split
    next => simp
    next =>
      split
      next same => simp [same]
      next =>
        simp only [List.find?_isSome, List.mem_cons, exists_eq_or_imp] at ih ⊢
        rw [ih]
        exact or_left_comm

theorem dropWhile_dropWhile {A : Type} {p q : A → Bool} (weaker : ∀ a, q a → p a) (items : List A) :
    (items.dropWhile q).dropWhile p = items.dropWhile p := by
  induction items with
  | nil => rfl
  | cons a rest ih =>
    by_cases dropped : q a
    · simp [dropped, weaker a dropped, ih]
    · simp [dropped]

theorem lookup_addBelow (parent child offset : Nat) (below : List (Nat × List Nat)) :
    ((addBelow parent child below).lookup offset).getD [] =
      (below.lookup offset).getD [] ++ if offset = parent then [child] else [] := by
  have apart {around : Nat} (other : ¬offset = around) : (offset == around) = false := by
    simpa using other
  induction below with
  | nil =>
    by_cases same : offset = parent
    · simp [addBelow, same]
    · simp [addBelow, List.lookup_cons, same, apart same]
  | cons first rest ih =>
    obtain ⟨around, found⟩ := first
    by_cases here : around = parent
    · subst here
      by_cases same : offset = around
      · simp [addBelow, same]
      · simp [addBelow, List.lookup_cons, same, apart same]
    · simp only [addBelow, if_neg here, List.lookup_cons]
      by_cases same : offset = around
      · simp [same, here]
      · simpa [apart same] using ih

theorem children_tryPush {index : EntryIndex} {unit : Nat} {entry : Entry}
    (known : (index.unit? unit).isSome) (offset : Nat) :
    (index.tryPush unit entry).1.children offset = index.children offset ++
      if (index.open_.dropWhile fun (opened, _) => entry.depth ≤ opened).head?.map (·.2) =
        some offset then [entry.offset] else [] := by
  obtain ⟨_, found⟩ := Option.isSome_iff_exists.1 known
  simp only [tryPush, found, children]
  cases (index.open_.dropWhile fun (opened, _) => entry.depth ≤ opened).head?.map (·.2) with
  | none => simp
  | some around => simp [lookup_addBelow, eq_comm]

theorem follows_empty : Follows .empty .empty where
  pushed := rfl
  units := by simp [unit?, empty, History.empty]
  parents _ := rfl
  children _ := rfl

theorem tryPush_error_iff {index : EntryIndex} {history : History}
    (follows : index.Follows history) (unit : Nat) (entry : Entry) (error : ModelError) :
    (index.tryPush unit entry).2 = .error error ↔
      unit ∉ history.units ∧ error = .unknownUnit entry.offset unit := by
  unfold tryPush
  cases found : index.unit? unit with
  | none =>
    have unknown : unit ∉ history.units := by simp [← follows.units, found]
    simp [unknown, eq_comm]
  | some _ =>
    have known : unit ∈ history.units := by simp [← follows.units, found]
    simp [known]

theorem tryPush_unknown {index : EntryIndex} {history : History}
    (follows : index.Follows history) {unit : Nat} (unknown : unit ∉ history.units)
    (entry : Entry) : (index.tryPush unit entry).1 = index := by
  rw [← follows.units, Option.isSome_iff_ne_none, not_not] at unknown
  rw [tryPush, unknown]

theorem Follows.push {index : EntryIndex} {history : History} (follows : index.Follows history)
    (next : Push) : (index.push next).Follows (history.push next) := by
  cases next with
  | unit unit =>
    refine ⟨follows.pushed, ?_, fun _ => rfl, follows.children⟩
    intro offset
    rw [EntryIndex.push, pushUnit, unit?, isSome_find?_insertUnit, ← unit?, follows.units]
    simp [History.push, eq_comm]
  | entry unit entry =>
    by_cases known : unit ∈ history.units
    · have isSome := (follows.units unit).2 known
      obtain ⟨_, found⟩ := Option.isSome_iff_exists.1 isSome
      simp only [EntryIndex.push, History.push, if_pos known]
      refine ⟨?_, ?_, ?_, ?_⟩
      · simp only [tryPush, found]
        rw [follows.parents]
        simp [follows.pushed]
      · simp only [tryPush, found]
        exact follows.units
      · intro depth
        simp only [tryPush, found, History.around?, List.find?_cons, List.dropWhile_cons]
        by_cases deeper : depth ≤ entry.depth
        · -- What the entry closed is closed for anything less deep as well.
          have closed : ∀ pair : Nat × Nat,
              decide (entry.depth ≤ pair.1) → decide (depth ≤ pair.1) :=
            fun pair => by simpa using Nat.le_trans deeper
          simpa [deeper, Nat.not_lt.2 deeper, dropWhile_dropWhile closed, History.around?]
            using follows.parents depth
        · simp [deeper, Nat.lt_of_not_le deeper]
      · intro offset
        rw [children_tryPush isSome, follows.children, follows.parents]
        simp only [History.accepted, List.cons_append, List.reverse_cons, List.filter_append,
          List.map_append]
        congr 1
        split
        next same => simp [same]
        next other => simp [other]
    · simpa [EntryIndex.push, History.push, known, tryPush_unknown follows known] using follows

theorem follows_build (pushes : List Push) : (build pushes).Follows (.of pushes) := by
  suffices ∀ (index : EntryIndex) (history : History), index.Follows history →
      (pushes.foldl push index).Follows (pushes.foldl History.push history) from
    this .empty .empty follows_empty
  induction pushes with
  | nil => exact fun _ _ follows => follows
  | cons next rest ih => exact fun _ _ follows => ih _ _ (follows.push next)

def Descends : List Entry → Prop
  | [] => True
  | entry :: earlier =>
    (∀ offset ∈ entry.parent, ∃ parent ∈ earlier,
      parent.offset = offset ∧ parent.depth < entry.depth) ∧ Descends earlier

theorem History.push_descends {history : History}
    (descends : Descends (history.recent ++ history.past)) (next : Push) :
    Descends ((history.push next).recent ++ (history.push next).past) := by
  cases next with
  | unit unit => exact descends
  | entry unit entry =>
    simp only [History.push]
    split
    next =>
      refine ⟨?_, descends⟩
      intro offset member
      obtain ⟨parent, nearest, same⟩ := Option.map_eq_some_iff.1 member
      have shallower := List.find?_some nearest
      exact ⟨parent, List.mem_append_left _ (List.mem_of_find?_eq_some nearest), same,
        by simpa using shallower⟩
    next => exact descends

theorem History.of_descends (pushes : List Push) :
    Descends ((History.of pushes).recent ++ (History.of pushes).past) := by
  suffices ∀ history : History, Descends (history.recent ++ history.past) →
      Descends ((pushes.foldl push history).recent ++ (pushes.foldl push history).past) from
    this .empty trivial
  induction pushes with
  | nil => exact fun _ descends => descends
  | cons next rest ih => exact fun _ descends => ih _ (push_descends descends next)

inductive Climbs (index : EntryIndex) : Option Nat → List Entry → Prop where
  | root : Climbs index none []
  | step {offset : Nat} {entry : Entry} {rest : List Entry} :
    index.entry? offset = some entry → Climbs index entry.parent rest →
      Climbs index (some offset) (entry :: rest)

theorem ancestorsFrom_none (index : EntryIndex) (fuel : Nat) :
    index.ancestorsFrom fuel none = [] := by
  cases fuel <;> rfl

theorem ancestorsFrom_some {index : EntryIndex} {entry : Entry}
    (found : index.entry? entry.offset = some entry) (fuel : Nat) :
    index.ancestorsFrom (fuel + 1) (some entry.offset) =
      entry :: index.ancestorsFrom fuel entry.parent := by
  simp [ancestorsFrom, found]

theorem climbs_ancestorsFrom {index : EntryIndex} {entries : List Entry} {entry : Entry}
    (descends : Descends entries) (found : ∀ e ∈ entries, index.entry? e.offset = some e)
    (member : entry ∈ entries) {fuel : Nat} (enough : entries.length ≤ fuel + 1) :
    index.Climbs entry.parent (index.ancestorsFrom fuel entry.parent) ∧
      (entry :: index.ancestorsFrom fuel entry.parent).Pairwise fun a b => b.depth < a.depth := by
  induction entries generalizing entry fuel with
  | nil => cases member
  | cons first earlier ih =>
    have foundEarlier : ∀ e ∈ earlier, index.entry? e.offset = some e :=
      fun e inside => found e (List.mem_cons_of_mem _ inside)
    simp only [List.length_cons] at enough
    rcases List.mem_cons.1 member with rfl | inside
    · cases around : entry.parent with
      | none => rw [ancestorsFrom_none]; exact ⟨.root, List.pairwise_singleton ..⟩
      | some offset =>
        obtain ⟨parent, inside, rfl, shallower⟩ := descends.1 offset around
        have atParent := foundEarlier parent inside
        -- The parent uses up one unit of fuel and is one entry of those that fuel is for.
        obtain ⟨less, rfl⟩ : ∃ less, fuel = less + 1 :=
          Nat.exists_eq_add_one.2 (Nat.lt_of_lt_of_le (List.length_pos_of_mem inside) (by omega))
        have left : earlier.length ≤ less + 1 := by omega
        obtain ⟨climbs, decreasing⟩ := ih descends.2 foundEarlier inside left
        rw [ancestorsFrom_some atParent]
        refine ⟨.step atParent climbs, List.pairwise_cons.2 ⟨?_, decreasing⟩⟩
        intro above listed
        rcases List.mem_cons.1 listed with rfl | higher
        · exact shallower
        · exact Nat.lt_trans ((List.pairwise_cons.1 decreasing).1 above higher) shallower
    · exact ih descends.2 foundEarlier inside (by omega)

section Distinct

variable {index : EntryIndex} {history : History}

theorem Follows.pushed_reverse (follows : index.Follows history) :
    index.pushed.reverse = history.accepted := by
  rw [follows.pushed, History.accepted]

theorem Follows.mem_accepted (follows : index.Follows history) (entry : Entry) :
    entry ∈ history.accepted ↔ entry ∈ index.pushed := by
  rw [← follows.pushed_reverse, List.mem_reverse]

theorem Follows.entry?_mem (follows : index.Follows history) {offset : Nat} {entry : Entry}
    (found : index.entry? offset = some entry) :
    entry ∈ history.accepted ∧ entry.offset = offset := by
  have same := List.find?_some found
  exact ⟨(follows.mem_accepted entry).2 (List.mem_of_find?_eq_some found), by simpa using same⟩

theorem Follows.found (follows : index.Follows history) (distinct : history.Distinct)
    {entry : Entry} (member : entry ∈ history.accepted) :
    index.entry? entry.offset = some entry := by
  cases found : index.entry? entry.offset with
  | none =>
    have absent := List.find?_eq_none.1 found entry ((follows.mem_accepted entry).1 member)
    exact absurd (beq_self_eq_true entry.offset) absent
  | some other =>
    obtain ⟨inside, same⟩ := follows.entry?_mem found
    rw [List.inj_on_of_nodup_map distinct inside member same]

theorem Follows.entries (follows : index.Follows history) (distinct : history.Distinct) :
    index.entries = history.accepted := by
  rw [EntryIndex.entries, follows.pushed_reverse]
  have kept : ∀ entry ∈ history.accepted, index.entry? entry.offset = some entry :=
    fun _ member => follows.found distinct member
  rw [List.filterMap_congr kept, List.filterMap_some]

theorem Follows.ancestors (follows : index.Follows history) (distinct : history.Distinct)
    (descends : Descends (history.recent ++ history.past)) {entry : Entry}
    (member : entry ∈ history.accepted) :
    index.Climbs entry.parent (index.ancestors entry.offset) ∧
      (entry :: index.ancestors entry.offset).Pairwise fun a b => b.depth < a.depth := by
  have found : ∀ e ∈ index.pushed, index.entry? e.offset = some e :=
    fun e inside => follows.found distinct ((follows.mem_accepted e).2 inside)
  rw [EntryIndex.ancestors, follows.found distinct member, Option.bind_some]
  rw [← follows.pushed] at descends
  exact climbs_ancestorsFrom descends found ((follows.mem_accepted entry).1 member)
    (Nat.le_succ index.size)

theorem Follows.strangers (follows : index.Follows history) {offset : Nat}
    (stranger : offset ∉ history.accepted.map (·.offset)) :
    index.entry? offset = none ∧ index.ancestors offset = [] := by
  have absent : index.entry? offset = none := by
    by_contra present
    obtain ⟨entry, found⟩ := Option.ne_none_iff_exists'.1 present
    obtain ⟨inside, rfl⟩ := follows.entry?_mem found
    exact stranger (List.mem_map_of_mem inside)
  refine ⟨absent, ?_⟩
  rw [EntryIndex.ancestors, absent, Option.bind_none, ancestorsFrom_none]

end Distinct

structure Nested (index : EntryIndex) (history : History) : Prop where
  entries : index.entries = history.accepted
  found : ∀ entry ∈ history.accepted, index.entry? entry.offset = some entry
  children : ∀ offset : Nat, index.children offset =
    (history.accepted.filter (·.parent = some offset)).map (·.offset)
  ancestors : ∀ entry ∈ history.accepted,
    index.Climbs entry.parent (index.ancestors entry.offset) ∧
      (entry :: index.ancestors entry.offset).Pairwise fun a b => b.depth < a.depth
  strangers : ∀ offset : Nat, offset ∉ history.accepted.map (·.offset) →
    index.entry? offset = none ∧ index.ancestors offset = []
  rejected : ∀ (unit : Nat) (entry : Entry) (error : ModelError),
    (index.tryPush unit entry).2 = .error error ↔
      unit ∉ history.units ∧ error = .unknownUnit entry.offset unit
  unchanged : ∀ (unit : Nat) (entry : Entry) (error : ModelError),
    (index.tryPush unit entry).2 = .error error → (index.tryPush unit entry).1 = index

theorem nested_build {pushes : List Push} (distinct : (History.of pushes).Distinct) :
    (build pushes).Nested (.of pushes) := by
  have follows := follows_build pushes
  have descends := History.of_descends pushes
  exact {
    entries := follows.entries distinct
    found := fun _ => follows.found distinct
    children := follows.children
    ancestors := fun _ => follows.ancestors distinct descends
    strangers := fun _ => follows.strangers
    rejected := tryPush_error_iff follows
    unchanged := fun unit entry error failed =>
      tryPush_unknown follows ((tryPush_error_iff follows unit entry error).1 failed).1 entry }

theorem entry?_of_mem_entries {index : EntryIndex} {entry : Entry} (listed : entry ∈ index.entries) :
    index.entry? entry.offset = some entry := by
  obtain ⟨pushed, -, found⟩ := List.mem_filterMap.1 listed
  have same := List.find?_some found
  rw [beq_iff_eq] at same
  rw [same, found]

theorem eq_of_mem_entries {index : EntryIndex} {a b : Entry} (first : a ∈ index.entries)
    (second : b ∈ index.entries) (same : a.offset = b.offset) : a = b := by
  have found := entry?_of_mem_entries first
  rw [same, entry?_of_mem_entries second] at found
  exact (Option.some.inj found).symm

theorem mem_entries_iff (index : EntryIndex) (e : Entry) :
    e ∈ index.entries ↔ index.entry? e.offset = some e := by
  constructor
  · exact entry?_of_mem_entries
  · intro found
    refine List.mem_filterMap.2 ⟨e, List.mem_reverse.2 (List.mem_of_find?_eq_some found), found⟩

end SourceScope.EntryIndex
