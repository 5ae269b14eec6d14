import Mathlib
import SourceScope.Proofs.Listing.Lookup
import SourceScope.Proofs.Model.Updates

set_option autoImplicit false

namespace SourceScope

namespace Listing

def Uncounted (listing : Listing) : Prop := ∀ line ∈ listing.lines, line.counter = .zero

namespace Uncounted

variable {listing : Listing}

theorem modify (uncounted : listing.Uncounted) {files : Array SourceFile}
    {instructions : Array Instruction} (id : LineId) {f : SourceLine → SourceLine}
    (keeps : ∀ line, (f line).counter = line.counter) :
    Uncounted ⟨files, listing.lines.modify id f, instructions⟩ := by
  intro line member
  obtain ⟨index, found⟩ := Array.mem_iff_getElem?.1 member
  rw [Array.getElem?_modify] at found
  split at found
  next =>
    obtain ⟨old, atIndex, rfl⟩ := Option.map_eq_some_iff.1 found
    rw [keeps, uncounted old (Array.mem_of_getElem? atIndex)]
  next => exact uncounted line (Array.mem_of_getElem? found)

theorem fileId (uncounted : listing.Uncounted) (path : String) :
    (listing.fileId path).2.Uncounted := by
  rwa [Uncounted, fileId_lines]

theorem lineId (uncounted : listing.Uncounted) (file : FileId) (number : UInt32)
    (function : FunctionId) : (listing.lineId file number function).2.Uncounted := by
  unfold Listing.lineId
  split
  next => exact uncounted
  next =>
    intro line member
    rcases Array.mem_push.1 member with old | rfl
    · exact uncounted line old
    · rfl

theorem assignTo {line : LineId} {stop : UInt32} {count index : Nat}
    (uncounted : listing.Uncounted) : (assignTo line stop count index listing).Uncounted := by
  fun_induction Listing.assignTo line stop count index listing with
  | case1 => exact uncounted
  | case2 => exact uncounted
  | case3 => exact uncounted
  | case4 _ _ _ _ _ _ _ _ ih => exact ih uncounted
  | case5 _ _ _ _ _ _ _ _ ih => exact ih (uncounted.modify line fun _ => rfl)

theorem attach (uncounted : listing.Uncounted) (driver : FunctionId) (extent : LineExtent) :
    (attach driver listing extent).Uncounted :=
  ((uncounted.fileId extent.file).lineId _ extent.line driver).assignTo

theorem setTexts {driver : FunctionId} {file : FileId} {number : Nat} {texts : List String}
    (uncounted : listing.Uncounted) : (setTexts driver file number texts listing).Uncounted := by
  induction texts generalizing number listing with
  | nil => exact uncounted
  | cons text rest ih =>
    exact ih ((uncounted.lineId file (UInt32.ofNat number) driver).modify _ fun _ => rfl)

theorem loadFile (uncounted : listing.Uncounted) (files : FileSystem) (searchPaths : List String)
    (driver : FunctionId) (file : FileId) :
    (loadFile files searchPaths driver listing file).Uncounted := by
  unfold Listing.loadFile
  split
  next => exact uncounted
  next => exact uncounted.setTexts

theorem attachOrphan (uncounted : listing.Uncounted) (functions : FunctionSet)
    (driver : FunctionId) (index : Nat) :
    (attachOrphan functions driver listing index).Uncounted := by
  unfold Listing.attachOrphan
  split
  next => exact uncounted
  next instruction _ =>
    dsimp only
    generalize ((functions.get? ((functions.smallestEnclosing? instruction.opcode.address).getD
      driver)).map (·.name)).getD "" = name
    have file : (listing.stubFile name).2.Uncounted := uncounted.fileId name
    exact (file.lineId (listing.stubFile name).1 1 _).modify _ fun _ => rfl

end Uncounted

theorem build_uncounted (settings : Settings) (files : FileSystem) (index : EntryIndex)
    (symbols : List Symbol) (functions : FunctionSet) (driver : FunctionId) (found : List Opcode) :
    (build settings files index symbols functions driver found).Uncounted := by
  have start : (ofOpcodes found).Uncounted := by simp [Uncounted, ofOpcodes]
  have attached : (ofRows settings index symbols driver found).Uncounted :=
    List.foldlRecOn _ _ start fun _ kept extent _ => kept.attach driver extent
  have loaded :
      (withTexts settings files driver (ofRows settings index symbols driver found)).Uncounted := by
    unfold withTexts
    split
    · exact List.foldlRecOn _ _ attached fun _ kept file _ =>
        kept.loadFile files settings.searchPaths driver file
    · exact attached
  have orphaned : (attachOrphans functions driver
      (withTexts settings files driver (ofRows settings index symbols driver found))).Uncounted :=
    List.foldlRecOn _ _ loaded fun _ kept index _ => kept.attachOrphan functions driver index
  intro line member
  simp only [build_eq_finish, finish, shortenPaths, assignFunctions, Array.mem_map] at member
  obtain ⟨old, among, rfl⟩ := member
  exact orphaned old among

end Listing

namespace SourceModel

structure Hit where
  address : UInt32
  cycles : UInt64

def tally (hits : List Hit) : Counter where
  executions := UInt64.ofNat hits.length
  cycles := (hits.map (·.cycles)).sum

def recordedAfter (hits : List Hit) : Call → List Hit
  | .record address cycles => hits ++ [⟨address, cycles⟩]
  | .resetCounters => []
  | .updateGlobals _ | .updateLocals _ => hits

def recorded (calls : List Call) : List Hit := calls.foldl recordedAfter []

def hitsAt (model : SourceModel) (hits : List Hit) (id : LineId) : List Hit :=
  hits.filter fun hit => model.profiledLineId? hit.address == some id

def total (model : SourceModel) : Counter where
  executions := (model.listing.lines.toList.map (·.counter.executions)).sum
  cycles := (model.listing.lines.toList.map (·.counter.cycles)).sum

theorem tally_append (hits : List Hit) (hit : Hit) :
    tally (hits ++ [hit]) = (tally hits).record hit.cycles := by
  simp [tally, Counter.record]

theorem tally_executions (hits : List Hit) :
    (tally hits).executions = (hits.map fun _ => (1 : UInt64)).sum := by
  induction hits with
  | nil => rfl
  | cons hit rest ih =>
    rw [List.map_cons, List.sum_cons, ← ih]
    simp [tally, add_comm]

theorem sum_filter_place {M A : Type} [AddCommMonoid M] (value : A → M) (place : A → Option Nat)
    (size : Nat) (items : List A)
    (bound : ∀ item ∈ items, ∀ n, place item = some n → n < size) :
    ((List.range size).map fun n =>
      ((items.filter fun item => place item == some n).map value).sum).sum =
        ((items.filter fun item => (place item).isSome).map value).sum := by
  have ranged (f : Nat → M) : ((List.range size).map f).sum = ∑ n ∈ Finset.range size, f n :=
    (Multiset.sum_coe _).symm
  rw [ranged]
  induction items with
  | nil => simp
  | cons item rest ih =>
    obtain ⟨here, later⟩ := List.forall_mem_cons.1 bound
    have apart (n : Nat) : (((item :: rest).filter fun item => place item == some n).map value).sum =
        (if place item = some n then value item else 0) +
          ((rest.filter fun item => place item == some n).map value).sum := by
      rw [List.filter_cons]
      split <;> simp_all
    simp only [apart, Finset.sum_add_distrib, ih later]
    cases found : place item with
    | none => simp [found]
    | some n =>
      have inside : n ∈ Finset.range size := Finset.mem_range.2 (here n found)
      simp [found, inside]

structure Tallies (initial : SourceModel) (hits : List Hit) (model : SourceModel) : Prop where
  instructions : model.listing.instructions = initial.listing.instructions
  driverLine : model.driverLine = initial.driverLine
  lines : ∀ id : LineId, model.line? id = (initial.line? id).map fun line =>
    { line with counter := tally (initial.hitsAt hits id) }

variable {initial model : SourceModel} {hits : List Hit}

theorem Tallies.profiledLineId? (tallies : initial.Tallies hits model) (address : UInt32) :
    model.profiledLineId? address = initial.profiledLineId? address := by
  have lineId : model.listing.lineIdAt? address = initial.listing.lineIdAt? address := by
    simp only [Listing.lineIdAt?, Listing.instructionAt?, Listing.instructionIndex?,
      tallies.instructions]
  simp only [SourceModel.profiledLineId?, lineId, tallies.driverLine, tallies.lines,
    Option.isSome_map]

theorem hitsAt_append (model : SourceModel) (hits : List Hit) (hit : Hit) (id : LineId) :
    model.hitsAt (hits ++ [hit]) id =
      if model.profiledLineId? hit.address = some id then model.hitsAt hits id ++ [hit]
      else model.hitsAt hits id := by
  simp only [hitsAt, List.filter_append, List.filter_cons, List.filter_nil, beq_iff_eq]
  split <;> simp

theorem Tallies.record (tallies : initial.Tallies hits model) (hit : Hit) :
    initial.Tallies (hits ++ [hit]) (model.record hit.address hit.cycles) := by
  have place := tallies.profiledLineId? hit.address
  unfold SourceModel.record
  split
  next missed =>
    refine ⟨tallies.instructions, tallies.driverLine, fun id => ?_⟩
    rw [hitsAt_append, if_neg (by simp [← place, missed]), tallies.lines]
  next target found =>
    rw [found] at place
    split
    next gone =>
      -- without a line there is no counter that could be wrong
      refine ⟨tallies.instructions, tallies.driverLine, fun id => ?_⟩
      rw [hitsAt_append, ← place]
      split
      next same =>
        obtain rfl := Option.some.inj same
        rw [gone]
        rw [tallies.lines, Option.map_eq_none_iff] at gone
        rw [gone, Option.map_none]
      next => exact tallies.lines id
    next line atTarget =>
      refine ⟨tallies.instructions, tallies.driverLine, fun id => ?_⟩
      have before := tallies.lines id
      rw [hitsAt_append, ← place]
      simp only [line?, Array.getElem?_modify] at before ⊢
      split
      next same =>
        subst same
        rw [if_pos rfl, before, Option.map_map, tally_append]
        rfl
      next other =>
        rw [if_neg (by simpa using other), before]

theorem Tallies.resetCounters (tallies : initial.Tallies hits model) :
    initial.Tallies [] model.resetCounters := by
  refine ⟨tallies.instructions, tallies.driverLine, fun id => ?_⟩
  have before := tallies.lines id
  simp only [line?] at before
  simp only [SourceModel.resetCounters, line?, Array.getElem?_map, before, Option.map_map]
  rfl

theorem Tallies.call (tallies : initial.Tallies hits model) (c : Call) :
    initial.Tallies (recordedAfter hits c) (model.call c) := by
  cases c with
  | record address cycles => exact tallies.record ⟨address, cycles⟩
  | resetCounters => exact tallies.resetCounters
  | updateGlobals state => exact ⟨tallies.instructions, tallies.driverLine, tallies.lines⟩
  | updateLocals state => exact ⟨tallies.instructions, tallies.driverLine, tallies.lines⟩

theorem Tallies.foldl (tallies : initial.Tallies hits model) (calls : List Call) :
    initial.Tallies (calls.foldl recordedAfter hits) (calls.foldl SourceModel.call model) := by
  induction calls generalizing model hits with
  | nil => exact tallies
  | cons c rest ih => exact ih (tallies.call c)

theorem Tallies.start (uncounted : initial.listing.Uncounted) : initial.Tallies [] initial := by
  refine ⟨rfl, rfl, fun id => ?_⟩
  cases found : initial.line? id with
  | none => rfl
  | some line =>
    have zero := uncounted line (Array.mem_of_getElem? found)
    rw [Option.map_some, Option.some.injEq]
    exact (congrArg (fun counter => { line with counter }) zero.symm).symm

theorem Tallies.counters (tallies : initial.Tallies hits model) :
    model.listing.lines.toList.map (·.counter) =
      (List.range initial.listing.lines.size).map fun id => tally (initial.hitsAt hits id) := by
  refine List.ext_getElem? fun id => ?_
  have line := tallies.lines id
  simp only [line?] at line
  rw [List.getElem?_map, Array.getElem?_toList, line, List.getElem?_map, Option.map_map]
  by_cases bound : id < initial.listing.lines.size <;> simp [bound]

theorem Tallies.total_eq (tallies : initial.Tallies hits model)
    (valid : ∀ (address : UInt32) (id : LineId), initial.profiledLineId? address = some id →
      id < initial.listing.lines.size) :
    model.total = tally (hits.filter fun hit => (initial.profiledLineId? hit.address).isSome) := by
  -- an execution counts as one, so that both parts of a counter are sums over the hits
  have spread (value : Hit → UInt64) := sum_filter_place value
    (fun hit => initial.profiledLineId? hit.address) initial.listing.lines.size hits
    fun hit _ id => valid hit.address id
  have executions := congrArg (fun counters => (counters.map (·.executions)).sum) tallies.counters
  have cycles := congrArg (fun counters => (counters.map (·.cycles)).sum) tallies.counters
  simp only [List.map_map, Function.comp_def, tally_executions] at executions cycles
  rw [total, executions, cycles]
  refine (congrArg₂ Counter.mk (spread fun _ => 1) (spread (·.cycles))).trans ?_
  rw [← tally_executions]
  rfl

theorem Finished.profiledLineId?_of_covered (finished : model.Finished) {address : UInt32}
    {i : Instruction} (found : model.instructionAt? address = some i) :
    ∃ (id : LineId) (line : SourceLine), model.profiledLineId? address = some id ∧
      model.line? id = some line ∧ i.opcode.address ∈ line.instructions := by
  obtain ⟨id, line, lineId, known, listed⟩ := finished.lineIdAt?_covered found
  exact ⟨id, line, by simp [profiledLineId?, lineId, known], known, listed⟩

theorem profiledLineId?_of_uncovered {address : UInt32}
    (missed : model.instructionAt? address = none) :
    model.profiledLineId? address = model.driverLine := by
  rw [profiledLineId?, lineIdAt?_uncovered missed]

theorem build_driverLine {settings : Settings} {files : FileSystem} {disassemble : Disassembler}
    {binary : Binary} (built : build settings files disassemble binary = .ok model) :
    model.driverLine =
      model.listing.lines.findIdx? fun line => line.isStub && line.function == model.driver := by
  obtain ⟨index, frame, rfl⟩ := build_eq_ofIndex built
  rfl

theorem build_tallies {settings : Settings} {files : FileSystem} {disassemble : Disassembler}
    {binary : Binary} (built : build settings files disassemble binary = .ok initial) :
    initial.Tallies [] initial := by
  obtain ⟨index, frame, rfl⟩ := build_eq_ofIndex built
  exact Tallies.start (Listing.build_uncounted settings files index _ _ _ _)

structure Placed (model : SourceModel) : Prop where
  inside : ∀ (address : UInt32) (i : Instruction), model.instructionAt? address = some i →
    ∃ (id : LineId) (line : SourceLine), model.profiledLineId? address = some id ∧
      model.line? id = some line ∧ i.opcode.address ∈ line.instructions
  outside : ∀ address : UInt32, (∀ i ∈ model.listing.instructions, i.opcode.covers address = false) →
    model.profiledLineId? address = model.driverLine
  driver : ∀ id : LineId, model.driverLine = some id → ∃ line : SourceLine,
    model.line? id = some line ∧ line.isStub = true ∧ line.function = model.driver
  undriven : model.driverLine = none → ∀ line ∈ model.listing.lines,
    line.isStub = true → line.function ≠ model.driver

theorem build_placed {settings : Settings} {files : FileSystem} {disassemble : Disassembler}
    {binary : Binary} (built : build settings files disassemble binary = .ok model) :
    model.Placed := by
  have finished := build_finished built
  have driverLine := build_driverLine built
  constructor
  case inside => exact fun address i => finished.profiledLineId?_of_covered
  case outside =>
    intro address outside
    refine profiledLineId?_of_uncovered (Option.eq_none_iff_forall_ne_some.2 fun i found => ?_)
    obtain ⟨nearest, covers⟩ :=
      (Listing.instructionAt?_eq_some_iff finished.ascending address i).1 found
    rw [outside i nearest.among] at covers
    cases covers
  case driver =>
    intro id found
    rw [driverLine] at found
    obtain ⟨bound, stub, -⟩ := Array.findIdx?_eq_some_iff_getElem.1 found
    rw [Bool.and_eq_true, beq_iff_eq] at stub
    exact ⟨_, Array.getElem?_eq_getElem bound, stub⟩
  case undriven =>
    intro missing line member stub own
    rw [driverLine] at missing
    simpa [stub, own] using Array.findIdx?_eq_none_iff.1 missing line member

def counts (model : SourceModel) (address : UInt32) : Bool :=
  (model.instructionAt? address).isSome || model.driverLine.isSome

theorem Finished.isSome_profiledLineId? (finished : model.Finished) (address : UInt32) :
    (model.profiledLineId? address).isSome = model.counts address := by
  cases found : model.instructionAt? address with
  | none => simp [counts, found, profiledLineId?_of_uncovered found]
  | some i =>
    obtain ⟨id, line, place, -⟩ := finished.profiledLineId?_of_covered found
    simp [counts, found, place]

theorem Finished.profiledLineId?_lt (finished : model.Finished) (placed : model.Placed)
    {address : UInt32} {id : LineId} (place : model.profiledLineId? address = some id) :
    id < model.listing.lines.size := by
  cases found : model.instructionAt? address with
  | none =>
    rw [profiledLineId?_of_uncovered found] at place
    obtain ⟨line, known, -⟩ := placed.driver id place
    exact (Array.getElem?_eq_some_iff.1 known).1
  | some i =>
    obtain ⟨other, line, same, known, -⟩ := finished.profiledLineId?_of_covered found
    obtain rfl := Option.some.inj (place.symm.trans same)
    exact (Array.getElem?_eq_some_iff.1 known).1

/-- What the lines of a model that has run say of the executions since its latest reset. -/
structure Accounts (initial : SourceModel) (hits : List Hit) (model : SourceModel) : Prop where
  each : ∀ (id : LineId) (line : SourceLine), model.line? id = some line →
    line.counter = tally (initial.hitsAt hits id)
  total : model.total = tally (hits.filter fun hit => initial.counts hit.address)

theorem run_accounts {settings : Settings} {files : FileSystem} {disassemble : Disassembler}
    {binary : Binary} (built : build settings files disassemble binary = .ok initial)
    (calls : List Call) : initial.Accounts (recorded calls) (initial.run calls) := by
  have finished := build_finished built
  have tallies : initial.Tallies (recorded calls) (initial.run calls) :=
    (build_tallies built).foldl calls
  constructor
  case each =>
    intro id line found
    rw [tallies.lines, Option.map_eq_some_iff] at found
    obtain ⟨before, -, rfl⟩ := found
    rfl
  case total =>
    simp only [← finished.isSome_profiledLineId?]
    exact tallies.total_eq fun _ _ => finished.profiledLineId?_lt (build_placed built)

/-- Every execution is counted at one line, at the driver's if no instruction covers its address;
only without a line of the driver it is lost. So all are counted in every run exactly if the driver
has a line or there is no such address. -/
theorem executions_counted {settings : Settings} {files : FileSystem} {disassemble : Disassembler}
    {binary : Binary} (built : build settings files disassemble binary = .ok initial) :
    initial.Placed ∧
      (∀ calls : List Call, initial.Accounts (recorded calls) (initial.run calls)) ∧
      ((∀ calls : List Call, (initial.run calls).total = tally (recorded calls)) ↔
        ∀ address : UInt32, initial.counts address) := by
  refine ⟨build_placed built, run_accounts built, ?_, ?_⟩
  · intro complete address
    -- one execution at a lost address already makes a difference
    by_contra lost
    have total := (run_accounts built [.record address 0]).total
    rw [complete, recorded, List.foldl_cons, List.foldl_nil, recordedAfter] at total
    simp [tally, lost] at total
  · intro counted calls
    rw [(run_accounts built calls).total, List.filter_eq_self.2 fun hit _ => counted hit.address]

open Sample in
def bareCode (symbols : List Symbol) : Binary := code 0x100 (nops 2) symbols (debug [] [] [])

set_option maxRecDepth 20000 in
theorem bareCode_driven :
    (build .default noFiles Opcode.sweep (bareCode [])).toOption.map (·.driverLine.isSome) =
      some true := by
  cbv

theorem executions_counted_bareCode :
    ∃ initial, build .default noFiles Opcode.sweep (bareCode []) = .ok initial ∧
      (initial.run [.record 0x100 5, .record 0x9000 7]).total = ⟨2, 12⟩ := by
  obtain ⟨initial, built, driven⟩ := exists_ok bareCode_driven
  have complete := (executions_counted built).2.2.2 fun address => by rw [counts, driven, Bool.or_true]
  refine ⟨initial, built, (complete _).trans ?_⟩
  rfl

set_option maxRecDepth 20000 in
theorem bareCode_total :
    (build .default noFiles Opcode.sweep (bareCode [⟨"foo", "foo", 0x100, 4, true⟩])).toOption.map
      (fun initial => (initial.run [.record 0x9000 5]).total) = some ⟨0, 0⟩ := by
  cbv

/-- A symbol for all of the code leaves the driver without a line, and other code uncounted. -/
theorem bareCode_loses :
    ∃ initial,
      build .default noFiles Opcode.sweep (bareCode [⟨"foo", "foo", 0x100, 4, true⟩]) =
        .ok initial ∧
      recorded [.record 0x9000 5] = [⟨0x9000, 5⟩] ∧
      (initial.run [.record 0x9000 5]).total.executions ≠ 1 ∧
      (initial.run [.record 0x9000 5]).total.cycles ≠ 5 := by
  obtain ⟨initial, built, total⟩ := exists_ok bareCode_total
  refine ⟨initial, built, rfl, ?_, ?_⟩ <;> simp [total]

end SourceModel

end SourceScope
