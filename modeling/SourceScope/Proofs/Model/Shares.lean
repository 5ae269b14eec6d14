import Mathlib
import SourceScope.Proofs.Model.Counters

set_option autoImplicit false

namespace SourceScope

theorem sum_filter_modify {A : Type} (value : A → UInt64) (keep : A → Bool) (f : A → A)
    (added : UInt64) {items : List A} {index : Nat} {item : A} (found : items[index]? = some item)
    (kept : keep (f item) = keep item) (adds : value (f item) = value item + added) :
    (((items.modify index f).filter keep).map value).sum =
      ((items.filter keep).map value).sum + if keep item then added else 0 := by
  induction items generalizing index with
  | nil => cases found
  | cons first rest ih =>
    cases index with
    | zero =>
      obtain rfl := Option.some.inj found
      by_cases keeps : keep first
      · simp [kept, keeps, adds, add_right_comm]
      · simp [kept, keeps]
    | succ index =>
      have next := ih found
      by_cases keeps : keep first <;>
        simp [List.modify_succ_cons, keeps, next, add_assoc]

namespace SourceModel

def linesOf (model : SourceModel) (id : FunctionId) : List SourceLine :=
  model.listing.lines.toList.filter (·.function == id)

def share (model : SourceModel) (id : FunctionId) : Counter where
  executions := ((model.linesOf id).map (·.counter.executions)).sum
  cycles := ((model.linesOf id).map (·.counter.cycles)).sum

structure Balanced (model : SourceModel) : Prop where
  owned : ∀ line ∈ model.listing.lines, line.function < model.functionCounters.size
  shares : ∀ (id : FunctionId) (counter : Counter), model.functionCounters[id]? = some counter →
    counter = model.share id

variable {model initial : SourceModel}

theorem share_of_zero (zero : ∀ line ∈ model.listing.lines, line.counter = .zero)
    (id : FunctionId) : model.share id = .zero := by
  have none (value : Counter → UInt64) (ofZero : value .zero = 0) :
      ((model.linesOf id).map fun line => value line.counter).sum = 0 := by
    refine List.sum_eq_zero fun n member => ?_
    obtain ⟨line, among, rfl⟩ := List.mem_map.1 member
    rw [zero line (Array.mem_toList_iff.1 (List.mem_of_mem_filter among)), ofZero]
  rw [share, none (·.executions) rfl, none (·.cycles) rfl, Counter.zero]

theorem share_modify {target : LineId} {line : SourceLine} (found : model.line? target = some line)
    (cycles : UInt64) (counters : Array Counter) (id : FunctionId) :
    share { model with
      listing := { model.listing with
        lines := model.listing.lines.modify target fun l =>
          { l with counter := l.counter.record cycles } }
      functionCounters := counters } id =
      if line.function = id then (model.share id).record cycles else model.share id := by
  have atTarget : model.listing.lines.toList[target]? = some line := by
    rwa [Array.getElem?_toList]
  have executions := sum_filter_modify (fun l : SourceLine => l.counter.executions)
    (·.function == id) (fun l => { l with counter := l.counter.record cycles }) 1 atTarget rfl rfl
  have spent := sum_filter_modify (fun l : SourceLine => l.counter.cycles)
    (·.function == id) (fun l => { l with counter := l.counter.record cycles }) cycles atTarget
    rfl rfl
  simp only [share, linesOf, Array.toList_modify, executions, spent, beq_iff_eq]
  by_cases own : line.function = id <;> simp [own, Counter.record]

theorem Balanced.record (balanced : model.Balanced) (address : UInt32) (cycles : UInt64) :
    (model.record address cycles).Balanced := by
  unfold SourceModel.record
  split
  next => exact balanced
  next target place =>
    split
    next => exact balanced
    next line found =>
      constructor
      case owned =>
        intro changed member
        obtain ⟨index, atIndex⟩ := Array.mem_iff_getElem?.1 member
        rw [Array.getElem?_modify] at atIndex
        rw [Array.size_modify]
        split at atIndex
        next =>
          obtain ⟨old, atOld, rfl⟩ := Option.map_eq_some_iff.1 atIndex
          exact balanced.owned old (Array.mem_of_getElem? atOld)
        next => exact balanced.owned changed (Array.mem_of_getElem? atIndex)
      case shares =>
        intro id counter counted
        rw [share_modify found]
        rw [Array.getElem?_modify] at counted
        by_cases own : line.function = id
        · rw [if_pos own, Option.map_eq_some_iff] at counted
          obtain ⟨old, atOld, rfl⟩ := counted
          rw [if_pos own, balanced.shares id old atOld]
        · rw [if_neg own] at counted
          rw [if_neg own, balanced.shares id counter counted]

theorem Balanced.resetCounters (balanced : model.Balanced) : model.resetCounters.Balanced := by
  constructor
  case owned =>
    intro changed member
    obtain ⟨line, among, rfl⟩ := Array.mem_map.1 member
    simpa [SourceModel.resetCounters] using balanced.owned line among
  case shares =>
    intro id counter counted
    simp only [SourceModel.resetCounters, Array.getElem?_map, Option.map_eq_some_iff] at counted
    obtain ⟨-, -, rfl⟩ := counted
    refine (share_of_zero ?_ id).symm
    intro changed member
    obtain ⟨line, -, rfl⟩ := Array.mem_map.1 member
    rfl

theorem Balanced.call (balanced : model.Balanced) (c : Call) : (model.call c).Balanced := by
  cases c with
  | record address cycles => exact balanced.record address cycles
  | resetCounters => exact balanced.resetCounters
  | updateGlobals state => exact ⟨balanced.owned, balanced.shares⟩
  | updateLocals state => exact ⟨balanced.owned, balanced.shares⟩

theorem Balanced.run (balanced : model.Balanced) (calls : List Call) :
    (model.run calls).Balanced :=
  List.foldlRecOn calls _ balanced fun _ kept c _ => kept.call c

theorem build_balanced {settings : Settings} {files : FileSystem} {disassemble : Disassembler}
    {binary : Binary} (built : build settings files disassemble binary = .ok model) :
    model.Balanced ∧ model.functionCounters.size = model.functions.size := by
  have owners := (build_finished built).sound.owners
  obtain ⟨index, frame, rfl⟩ := build_eq_ofIndex built
  have size : (ofIndex settings files disassemble binary index frame).functionCounters.size =
      (ofIndex settings files disassemble binary index frame).functions.size := by
    simp [ofIndex]
  refine ⟨⟨fun line member => size ▸ owners line member, ?_⟩, size⟩
  intro id counter counted
  rw [ofIndex, Array.getElem?_replicate, Option.ite_none_right_eq_some, Option.some.injEq] at counted
  obtain ⟨-, rfl⟩ := counted
  exact (share_of_zero (fun line => Listing.build_uncounted settings files index _ _ _ _ line)
    id).symm

theorem size_functionCounters_run (calls : List Call) :
    (model.run calls).functionCounters.size = model.functionCounters.size := by
  refine List.foldlRecOn (motive := fun m : SourceModel =>
    m.functionCounters.size = model.functionCounters.size) calls _ rfl ?_
  intro later same c _
  rw [← same]
  cases c with
  | record address cycles =>
    simp only [SourceModel.call, SourceModel.record]
    split
    · rfl
    split <;> simp
  | resetCounters => simp [SourceModel.call, SourceModel.resetCounters]
  | updateGlobals state => rfl
  | updateLocals state => rfl

/-- Whatever is recorded and reset, and in whatever order, a function has been counted for as much as
its lines together. -/
theorem run_shares {settings : Settings} {files : FileSystem} {disassemble : Disassembler}
    {binary : Binary} (built : build settings files disassemble binary = .ok initial)
    (calls : List Call) {id : FunctionId} {f : SourceFunction}
    (known : initial.functions.get? id = some f) :
    (initial.run calls).functionCounters[id]? = some ((initial.run calls).share id) := by
  obtain ⟨balanced, size⟩ := build_balanced built
  have inside : id < (initial.run calls).functionCounters.size := by
    rw [size_functionCounters_run, size]
    exact (List.getElem?_eq_some_iff.1 known).1
  have counted := Array.getElem?_eq_getElem inside
  rw [counted, (balanced.run calls).shares id _ counted]

def halfNamed : Binary := bareCode [⟨"foo", "foo", 0x100, 2, true⟩]

def scattered : List Call :=
  [.record 0x100 3, .resetCounters, .record 0x100 5, .record 0x102 7, .record 0x9000 8]

set_option maxRecDepth 20000 in
theorem halfNamed_counters :
    (build .default noFiles Opcode.sweep halfNamed).toOption.map (fun initial =>
      (initial.functions.functions.map (·.name), (initial.run scattered).functionCounters.toList)) =
      some (["foo", "<driver>"], [⟨1, 5⟩, ⟨2, 15⟩]) := by
  cbv

theorem run_shares_halfNamed :
    ∃ initial, build .default noFiles Opcode.sweep halfNamed = .ok initial ∧
      (initial.functions.functions.map (·.name)) = ["foo", "<driver>"] ∧
      (initial.run scattered).share 0 = ⟨1, 5⟩ ∧ (initial.run scattered).share 1 = ⟨2, 15⟩ := by
  obtain ⟨initial, built, same⟩ := exists_ok halfNamed_counters
  obtain ⟨names, counters⟩ := Prod.mk.inj same
  have two : initial.functions.functions.length = 2 := by
    simpa using congrArg List.length names
  have first := run_shares built scattered (List.getElem?_eq_getElem (i := 0) (by omega))
  have second := run_shares built scattered (List.getElem?_eq_getElem (i := 1) (by omega))
  rw [← Array.getElem?_toList, counters] at first second
  exact ⟨initial, built, names, (Option.some.inj first).symm, (Option.some.inj second).symm⟩

end SourceModel

end SourceScope
