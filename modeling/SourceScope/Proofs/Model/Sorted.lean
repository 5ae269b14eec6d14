import Mathlib
import SourceScope.Model.Sorted
import SourceScope.Proofs.Function.Occurrence
import SourceScope.Proofs.Function.Stubs
import SourceScope.Proofs.Model.Build
import SourceScope.Proofs.Model.Counters
import SourceScope.Proofs.Order.Sorted

set_option autoImplicit false

namespace SourceScope

namespace FunctionSet

theorem toList_pairwise {set : FunctionSet} (distinct : set.names.Nodup) :
    set.toList.Pairwise fun a b => a.2.name ≠ b.2.name := by
  have named : set.toList.map (·.2.name) = set.names :=
    List.ext_getElem (by simp [toList, names]) (by simp [toList, names])
  rw [← named] at distinct
  exact List.pairwise_map.1 distinct

end FunctionSet

namespace SourceModel

variable {settings : Settings} {files : FileSystem} {disassemble : Disassembler} {binary : Binary}
  {initial model : SourceModel}

theorem build_names_nodup (built : build settings files disassemble binary = .ok model) :
    model.functions.names.Nodup := by
  obtain ⟨index, frame, rfl⟩ := build_eq_ofIndex built
  have completed : (ofIndex settings files disassemble binary index frame).functions =
      (FunctionSet.resolve index ⟨binary.order, binary.debugSections.data ".debug_ranges"⟩
        ⟨binary.order, binary.debugSections.data ".debug_loc"⟩).completed settings disassemble
          binary := rfl
  rw [completed, FunctionSet.completed_eq]
  exact FunctionSet.names_insertAll_nodup (FunctionSet.resolve_gathered index _ _).distinct _

def uncounted (line : SourceLine) : SourceLine := { line with counter := .zero }

structure Recounts (initial model : SourceModel) : Prop where
  functions : model.functions = initial.functions
  files : model.listing.files = initial.listing.files
  lines : model.listing.lines.map uncounted = initial.listing.lines.map uncounted

theorem Recounts.refl (model : SourceModel) : model.Recounts model := ⟨rfl, rfl, rfl⟩

theorem Recounts.call (recounts : initial.Recounts model) (c : Call) :
    initial.Recounts (model.call c) := by
  cases c with
  | updateGlobals state => exact ⟨recounts.functions, recounts.files, recounts.lines⟩
  | updateLocals state => exact ⟨recounts.functions, recounts.files, recounts.lines⟩
  | resetCounters =>
    refine ⟨recounts.functions, recounts.files, ?_⟩
    rw [← recounts.lines]
    simp [SourceModel.call, resetCounters, uncounted, Function.comp_def]
  | record address cycles =>
    simp only [SourceModel.call, record]
    split
    · exact recounts
    next id _ =>
      split
      · exact recounts
      · refine ⟨recounts.functions, recounts.files, ?_⟩
        rw [← recounts.lines]
        apply Array.ext_getElem?
        intro n
        simp only [Array.getElem?_map, Array.getElem?_modify]
        split
        · rw [Option.map_map]
          rfl
        · rfl

theorem Recounts.run (initial : SourceModel) (calls : List Call) :
    initial.Recounts (initial.run calls) :=
  List.foldlRecOn calls _ (.refl initial) fun _ recounts c _ => recounts.call c

def PlaceBefore (model : SourceModel) (a b : SourceLine) : Prop :=
  model.filePath a < model.filePath b ∨
    model.filePath a = model.filePath b ∧ a.number < b.number

def LineBefore (model : SourceModel) : LineKey → SourceLine → SourceLine → Prop
  | .file, a, b => model.PlaceBefore a b
  | .function, a, b =>
    model.functionName a.function < model.functionName b.function ∨
      model.functionName a.function = model.functionName b.function ∧ model.PlaceBefore a b
  | .number, a, b =>
    a.number < b.number ∨ a.number = b.number ∧ model.filePath a < model.filePath b
  | .executions, a, b =>
    a.counter.executions < b.counter.executions ∨
      a.counter.executions = b.counter.executions ∧ model.PlaceBefore a b
  | .cycles, a, b =>
    a.counter.cycles < b.counter.cycles ∨
      a.counter.cycles = b.counter.cycles ∧ model.PlaceBefore a b

def FunctionBefore (model : SourceModel) :
    FunctionKey → FunctionId × SourceFunction → FunctionId × SourceFunction → Prop
  | .name, a, b => a.2.name < b.2.name
  -- a function that is not known to be declared comes before those that are
  | .file, a, b =>
    a.2.declarationFile < b.2.declarationFile ∨
      a.2.declarationFile = b.2.declarationFile ∧
        (a.2.declarationLine < b.2.declarationLine ∨
          a.2.declarationLine = b.2.declarationLine ∧ a.2.name < b.2.name)
  | .executions, a, b =>
    (model.functionCounter a.1).executions < (model.functionCounter b.1).executions ∨
      (model.functionCounter a.1).executions = (model.functionCounter b.1).executions ∧
        a.2.name < b.2.name
  | .cycles, a, b =>
    (model.functionCounter a.1).cycles < (model.functionCounter b.1).cycles ∨
      (model.functionCounter a.1).cycles = (model.functionCounter b.1).cycles ∧
        a.2.name < b.2.name

section

open Std

variable (model : SourceModel)

instance : TransCmp model.comparePlaces :=
  inferInstanceAs (TransCmp (compareLex (compareOn model.filePath) (compareOn (·.number))))

theorem transCmp_placed {K : Type} [Ord K] [TransOrd K] (read : SourceLine → K) :
    TransCmp (compareLex (compareOn read) model.comparePlaces) :=
  inferInstance

instance (key : LineKey) : TransCmp (model.compareLines key) := by
  cases key with
  | file => exact transCmp_of_eq (inferInstanceAs (TransCmp model.comparePlaces)) fun _ _ => rfl
  | function =>
    exact transCmp_of_eq (model.transCmp_placed fun line => model.functionName line.function)
      fun _ _ => rfl
  | number =>
    have lawful : TransCmp (compareLex (compareOn fun line : SourceLine => line.number)
      (compareOn model.filePath)) := inferInstance
    exact transCmp_of_eq lawful fun _ _ => rfl
  | executions => exact transCmp_of_eq (model.transCmp_placed (·.counter.executions)) fun _ _ => rfl
  | cycles => exact transCmp_of_eq (model.transCmp_placed (·.counter.cycles)) fun _ _ => rfl

theorem transCmp_named {K : Type} [Ord K] [TransOrd K]
    (read : FunctionId × SourceFunction → K) :
    TransCmp (compareLex (compareOn read) (compareOn (·.2.name))) :=
  inferInstance

instance (key : FunctionKey) : TransCmp (model.compareFunctions key) := by
  cases key with
  | name =>
    have lawful : TransCmp (compareOn fun p : FunctionId × SourceFunction => p.2.name) :=
      inferInstance
    exact transCmp_of_eq lawful fun _ _ => rfl
  | file =>
    have lawful : TransCmp (compareLex (compareLex
      (compareOn fun p : FunctionId × SourceFunction => p.2.declarationFile)
        (compareOn (·.2.declarationLine))) (compareOn (·.2.name))) := inferInstance
    exact transCmp_of_eq lawful fun _ _ => rfl
  | executions =>
    exact transCmp_of_eq (transCmp_named fun p => (model.functionCounter p.1).executions)
      fun _ _ => rfl
  | cycles =>
    exact transCmp_of_eq (transCmp_named fun p => (model.functionCounter p.1).cycles) fun _ _ => rfl

theorem compareLines_lt_iff (key : LineKey) (a b : SourceLine) :
    model.compareLines key a b = .lt ↔ model.LineBefore key a b := by
  cases key <;> simp only [compareLines, comparePlaces, LineBefore, PlaceBefore,
    Ordering.then_eq_lt, compare_lt_iff_lt, Std.compare_eq_lt, LawfulEqCmp.compare_eq_iff_eq]

theorem compareFunctions_lt_iff (key : FunctionKey) (a b : FunctionId × SourceFunction) :
    model.compareFunctions key a b = .lt ↔ model.FunctionBefore key a b := by
  have files := compare_option_lt (fun a b : String => compare_lt_iff_lt)
  have lines := compare_option_lt (fun a b : UInt32 => Std.compare_eq_lt)
  cases key <;> simp only [compareFunctions, FunctionBefore, Ordering.then_eq_lt,
    Ordering.then_eq_eq, compare_lt_iff_lt, Std.compare_eq_lt, LawfulEqCmp.compare_eq_iff_eq, files,
    lines, or_assoc, and_assoc, and_or_left]

theorem place_of_compareLines {key : LineKey} {a b : SourceLine}
    (tie : model.compareLines key a b = .eq) :
    model.filePath a = model.filePath b ∧ a.number = b.number := by
  cases key <;> simp only [compareLines, comparePlaces, Ordering.then_eq_eq,
    LawfulEqCmp.compare_eq_iff_eq] at tie <;> simp [tie]

theorem name_of_compareFunctions {key : FunctionKey} {a b : FunctionId × SourceFunction}
    (tie : model.compareFunctions key a b = .eq) : a.2.name = b.2.name := by
  cases key <;> simp only [compareFunctions, Ordering.then_eq_eq,
    LawfulEqCmp.compare_eq_iff_eq] at tie <;> simp [tie]

end

theorem Recounts.line (recounts : initial.Recounts model) {id : LineId} {line : SourceLine}
    (found : model.line? id = some line) :
    ∃ before, initial.line? id = some before ∧ before.file = line.file ∧
      before.number = line.number := by
  have same := congrArg (·[id]?) recounts.lines
  rw [line?] at found
  simp only [Array.getElem?_map, found, Option.map_some] at same
  obtain ⟨before, atId, uncounts⟩ := Option.map_eq_some_iff.1 same.symm
  simp only [uncounted, SourceLine.mk.injEq] at uncounts
  exact ⟨before, atId, uncounts.1, uncounts.2.1⟩

theorem Recounts.apart (recounts : initial.Recounts model)
    (sound : initial.listing.Sound initial.functions) :
    model.listing.lines.toList.Pairwise fun a b =>
      ¬(model.filePath a = model.filePath b ∧ a.number = b.number) := by
  refine Listing.pairwise_toList fun m n first second less inFirst inSecond ⟨path, number⟩ => ?_
  obtain ⟨a, atM, aFile, aNumber⟩ := recounts.line inFirst
  obtain ⟨b, atN, bFile, bNumber⟩ := recounts.line inSecond
  have aKnown := Array.getElem?_eq_getElem (sound.files a (Array.mem_of_getElem? atM))
  have bKnown := Array.getElem?_eq_getElem (sound.files b (Array.mem_of_getElem? atN))
  simp only [filePath, file?, recounts.files, ← aFile, ← bFile, aKnown, bKnown, Option.map_some,
    Option.getD_some] at path
  have file := sound.paths a.file b.file _ _ aKnown bKnown path
  have same := sound.places m n a b atM atN file (aNumber.trans (number.trans bNumber.symm))
  exact absurd same (Nat.ne_of_lt less)

/-- What views of items are that a strict order sorts: no two items tie, the view up has the chosen
items in their order, and the view down is its reverse. -/
structure Sorts {A : Type} (before : A → A → Prop) (all chosen : List A) (view : Bool → List A) :
    Prop where
  strict : ∀ a b, before a b → ¬before b a
  untied : all.Pairwise fun a b => before a b ∨ before b a
  perm : (view false).Perm chosen
  ordered : (view false).Pairwise before
  reversed : view true = (view false).reverse

theorem sorts_of_untied {A : Type} {order : A → A → Ordering} [Std.TransCmp order]
    {before : A → A → Prop} (means : ∀ a b, order a b = .lt ↔ before a b) {all chosen : List A}
    (part : chosen.Sublist all) (untied : all.Pairwise fun a b => order a b ≠ .eq) :
    Sorts before all chosen fun descending => chosen.mergeSort (precedes order descending) := by
  have chosenUntied := untied.sublist part
  constructor
  case strict =>
    intro a b first second
    rw [← means] at first second
    rw [Std.OrientedCmp.gt_of_lt second] at first
    cases first
  case untied =>
    refine untied.imp fun {a b} different => ?_
    rw [← means, ← means]
    cases compared : order a b with
    | lt => exact .inl rfl
    | eq => exact absurd compared different
    | gt => exact .inr (Std.OrientedCmp.lt_of_gt compared)
  case perm => exact List.mergeSort_perm _ _
  case ordered => exact (mergeSort_ascends chosenUntied).imp fun less => (means _ _).1 less
  case reversed => exact mergeSort_descends chosenUntied

/-- By every key and whatever the counters are, sorted lines are those that have code and sorted
functions are all of them, without ties, and sorting them down reverses them. -/
theorem views_sorted (built : build settings files disassemble binary = .ok initial)
    (recounts : initial.Recounts model) :
    (∀ key, Sorts (model.LineBefore key) model.listing.lines.toList
      (model.listing.lines.toList.filter (·.hasCode)) (model.sortedLines key)) ∧
    ∀ key, Sorts (model.FunctionBefore key) model.functions.toList model.functions.toList
      (model.sortedFunctions key) := by
  constructor
  · intro key
    have apart := recounts.apart (build_finished built).sound
    exact sorts_of_untied (model.compareLines_lt_iff key) List.filter_sublist
      (apart.imp fun different tie => different (model.place_of_compareLines tie))
  · intro key
    have distinct := FunctionSet.toList_pairwise (recounts.functions ▸ build_names_nodup built)
    exact sorts_of_untied (model.compareFunctions_lt_iff key) (List.Sublist.refl _)
      (distinct.imp fun different tie => different (model.name_of_compareFunctions tie))

def placesBy (model : SourceModel) (key : LineKey) (descending : Bool) :
    List (String × UInt32 × UInt64) :=
  (model.sortedLines key descending).map fun line =>
    (model.filePath line, line.number, line.counter.executions)

def namesBy (model : SourceModel) (key : FunctionKey) (descending : Bool) : List String :=
  (model.sortedFunctions key descending).map (·.2.name)

set_option maxRecDepth 20000 in
theorem bareCode_views :
    (build .default noFiles Opcode.sweep (bareCode [⟨"foo", "foo", 0x100, 2, true⟩])).toOption.map
      (fun initial => ((initial.run [.record 0x102 7]).placesBy .executions true,
        (initial.run [.record 0x102 7]).namesBy .executions true)) =
      some ([("<driver>", 1, 1), ("foo", 1, 0)], ["<driver>", "foo"]) := by
  cbv

theorem views_sorted_bareCode :
    ∃ initial, build .default noFiles Opcode.sweep (bareCode [⟨"foo", "foo", 0x100, 2, true⟩]) =
        .ok initial ∧
      initial.Recounts (initial.run [.record 0x102 7]) ∧
      (initial.run [.record 0x102 7]).placesBy .executions false =
        [("foo", 1, 0), ("<driver>", 1, 1)] ∧
      (initial.run [.record 0x102 7]).namesBy .executions false = ["foo", "<driver>"] := by
  obtain ⟨initial, built, same⟩ := exists_ok bareCode_views
  obtain ⟨places, names⟩ := Prod.mk.inj same
  have recounts := Recounts.run initial [.record 0x102 7]
  obtain ⟨lines, functions⟩ := views_sorted built recounts
  rw [placesBy, (lines .executions).reversed, List.map_reverse, List.reverse_eq_iff] at places
  rw [namesBy, (functions .executions).reversed, List.map_reverse, List.reverse_eq_iff] at names
  exact ⟨initial, built, recounts, places, names⟩

end SourceModel

end SourceScope
