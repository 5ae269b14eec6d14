import SourceScope.Proofs.Function.Innermost
import SourceScope.Proofs.Function.Inserted

set_option autoImplicit false

namespace SourceScope

namespace SourceFunction

def isOutOfLine (f : SourceFunction) : Bool := f.ranges.any (!·.inlined)

def isFramed (f : SourceFunction) : Bool := f.frameBase.isSome

theorem withInstances_frameBase (f : SourceFunction) : f.withInstances.frameBase = f.frameBase := by
  unfold withInstances
  split <;> rfl

end SourceFunction

namespace FunctionSet

section Own

def frameSource? (functions : List SourceFunction) : Option SourceFunction :=
  ((functions.find? (·.isOutOfLine)).filter (·.isFramed)).or (functions.find? (·.isFramed))

theorem isFramed_of_frameSource? {functions : List SourceFunction} {source : SourceFunction}
    (found : frameSource? functions = some source) : source.isFramed = true := by
  rcases Option.or_eq_some_iff.1 found with first | ⟨-, first⟩
  · exact (Option.filter_eq_some_iff.1 first).2
  · exact List.find?_some first

theorem mem_of_frameSource? {functions : List SourceFunction} {source : SourceFunction}
    (found : frameSource? functions = some source) : source ∈ functions := by
  rcases Option.or_eq_some_iff.1 found with first | ⟨-, first⟩
  · exact List.mem_of_find?_eq_some (Option.filter_eq_some_iff.1 first).1
  · exact List.mem_of_find?_eq_some first

theorem frameSource?_concat (functions : List SourceFunction) (f : SourceFunction) :
    frameSource? (functions ++ [f]) =
      if f.isFramed && ((frameSource? functions).isNone ||
          ((functions.find? (·.isOutOfLine)).isNone && f.isOutOfLine)) then some f
      else frameSource? functions := by
  cases outer : functions.find? (·.isOutOfLine) with
  | none =>
    cases inner : functions.find? (·.isFramed) <;> by_cases framed : f.isFramed <;>
      by_cases outOfLine : f.isOutOfLine <;>
      simp [frameSource?, outer, inner, framed, outOfLine, Option.filter_some]
  | some first =>
    cases inner : functions.find? (·.isFramed) <;> by_cases framed : f.isFramed <;>
      by_cases firstFramed : first.isFramed <;>
      simp [frameSource?, outer, inner, framed, firstFramed, Option.filter_some]

theorem frameBase_joined (before f : SourceFunction) :
    (joined (some before) f).frameBase =
      if f.isFramed && (!before.isFramed || (!before.isOutOfLine && f.isOutOfLine)) then f.frameBase
      else before.frameBase := by
  have inlinedOnly : before.ranges.all (·.inlined) = !before.isOutOfLine := by
    simp [SourceFunction.isOutOfLine, List.any_eq_not_all_not]
  simp only [joined, SourceFunction.merge, inlinedOnly, f.withInstances_frameBase,
    f.withInstances_ranges]
  simp [SourceFunction.isFramed, SourceFunction.isOutOfLine]

theorem isOutOfLine_merged {functions : List SourceFunction} {f : SourceFunction}
    (made : merged functions = some f) :
    f.isOutOfLine = (functions.find? (·.isOutOfLine)).isSome := by
  rw [Bool.eq_iff_iff, List.find?_isSome]
  simp only [SourceFunction.isOutOfLine, List.any_eq_true, mem_ranges_merged made]
  constructor
  · rintro ⟨r, ⟨g, member, inRanges⟩, plain⟩
    exact ⟨g, member, r, inRanges, plain⟩
  · rintro ⟨g, member, r, inRanges, plain⟩
    exact ⟨r, ⟨g, member, inRanges⟩, plain⟩

theorem frameBase_merged {functions : List SourceFunction} {f : SourceFunction}
    (made : merged functions = some f) :
    f.frameBase = (frameSource? functions).bind (·.frameBase) := by
  induction functions using List.reverseRecOn generalizing f with
  | nil => cases made
  | append_singleton before last ih =>
    rw [merged_concat] at made
    obtain rfl := Option.some.inj made
    rw [frameSource?_concat]
    cases earlier : merged before with
    | none =>
      obtain rfl := eq_nil_of_merged earlier
      by_cases framed : last.isFramed
      · simp [joined, SourceFunction.withInstances_frameBase, frameSource?, framed]
      · have none_ : last.frameBase = none := by simpa [SourceFunction.isFramed] using framed
        simp [joined, SourceFunction.withInstances_frameBase, frameSource?, framed, none_]
    | some g =>
      have base := ih earlier
      have framed : g.isFramed = (frameSource? before).isSome := by
        cases source : frameSource? before with
        | none => simp [SourceFunction.isFramed, base, source]
        | some h =>
          simpa [SourceFunction.isFramed, base, source] using isFramed_of_frameSource? source
      rw [frameBase_joined, framed, isOutOfLine_merged earlier, Option.not_isSome,
        Option.not_isSome]
      split
      · rfl
      · exact base

/-- Where a framed function with code that is not inlined was inserted, the merged one has its frame
base from such a function exactly if the first with such code is framed or the first framed one has
such code. -/
theorem frameBase_outOfLine_iff {functions : List SourceFunction} {g : SourceFunction}
    (member : g ∈ functions) (outOfLine : g.isOutOfLine = true) (framed : g.isFramed = true) :
    ∃ f source, (inserted functions).named? g.name = some f ∧
      frameSource? (ofName functions g.name) = some source ∧
      source ∈ functions ∧ source.name = g.name ∧
      source.isFramed = true ∧ f.frameBase = source.frameBase ∧
      (source.isOutOfLine = true ↔
        ((ofName functions g.name).find? (·.isOutOfLine)).any (·.isFramed) = true ∨
          ((ofName functions g.name).find? (·.isFramed)).any (·.isOutOfLine) = true) := by
  obtain ⟨f, found⟩ := exists_named? member
  rw [named?_inserted] at found ⊢
  have among : g ∈ ofName functions g.name := mem_ofName.2 ⟨member, rfl⟩
  obtain ⟨first, outer⟩ : ∃ first, (ofName functions g.name).find? (·.isOutOfLine) = some first :=
    Option.isSome_iff_exists.1 (List.find?_isSome.2 ⟨g, among, outOfLine⟩)
  obtain ⟨base, inner⟩ : ∃ base, (ofName functions g.name).find? (·.isFramed) = some base :=
    Option.isSome_iff_exists.1 (List.find?_isSome.2 ⟨g, among, framed⟩)
  have firstOuter : first.isOutOfLine = true := List.find?_some outer
  obtain ⟨source, from_, kind⟩ : ∃ source, frameSource? (ofName functions g.name) = some source ∧
      (source.isOutOfLine = true ↔ first.isFramed = true ∨ base.isOutOfLine = true) := by
    by_cases firstFramed : first.isFramed
    · refine ⟨first, ?_, by simp [firstOuter, firstFramed]⟩
      simp [frameSource?, outer, firstFramed, Option.filter_some]
    · refine ⟨base, ?_, by simp [firstFramed]⟩
      simp [frameSource?, outer, inner, firstFramed, Option.filter_some]
  obtain ⟨listed, named⟩ := mem_ofName.1 (mem_of_frameSource? from_)
  refine ⟨f, source, found, from_, listed, named, isFramed_of_frameSource? from_, ?_, ?_⟩
  · rw [frameBase_merged found, from_, Option.bind_some]
  · simpa [outer, inner] using kind

def inRegister (register : UInt16) : Location :=
  .expression (.ofOperations [.register register])

def copyOf (name : String) (r : CodeRange) (base : Option UInt16) : SourceFunction :=
  ⟨name, [r], base.map inRegister, [], none, none, false⟩

def inlinedFirst : List SourceFunction :=
  [copyOf "f" ⟨0x2000, 0x2007, true⟩ (some 1), copyOf "f" ⟨0x3000, 0x300f, false⟩ (some 3)]

theorem frameBase_outOfLine_inlinedFirst :
    copyOf "f" ⟨0x3000, 0x300f, false⟩ (some 3) ∈ inlinedFirst ∧
      (copyOf "f" ⟨0x3000, 0x300f, false⟩ (some 3)).isOutOfLine = true ∧
      (copyOf "f" ⟨0x3000, 0x300f, false⟩ (some 3)).isFramed = true ∧
      ∃ f source, (inserted inlinedFirst).named? "f" = some f ∧ source ∈ inlinedFirst ∧
        source.isOutOfLine = true ∧ f.frameBase = source.frameBase := by
  have member : copyOf "f" ⟨0x3000, 0x300f, false⟩ (some 3) ∈ inlinedFirst := by decide
  obtain ⟨f, source, found, -, listed, -, -, same, kind⟩ :=
    frameBase_outOfLine_iff member (by decide) (by decide)
  exact ⟨member, by decide, by decide, f, source, found, listed,
    kind.2 (.inl (by decide +kernel)), same⟩

def bareFirst : List SourceFunction :=
  copyOf "f" ⟨0x1000, 0x100f, false⟩ none :: inlinedFirst

theorem bareFirst_strays :
    (∃ g ∈ bareFirst, g.name = "f" ∧ g.isOutOfLine = true ∧ g.isFramed = true) ∧
      ∃ f, (inserted bareFirst).named? "f" = some f ∧
        f.frameBase = some (inRegister 1) ∧
        ∀ g ∈ bareFirst, g.name = "f" → g.isOutOfLine = true → g.frameBase ≠ f.frameBase := by
  have base : ((inserted bareFirst).named? "f").map (·.frameBase) = some (some (inRegister 1)) := by
    decide +kernel
  obtain ⟨f, found, same⟩ := Option.map_eq_some_iff.1 base
  refine ⟨by decide, f, found, same, ?_⟩
  rw [same]
  decide

end Own

section At

def around (address : UInt32) (items : List (CodeRange × Location)) :
    Option (CodeRange × Location) :=
  innermost? Prod.fst (items.filter (·.1.contains address))

def ownInstances (f : SourceFunction) : List (CodeRange × Location) :=
  f.frameBase.toList.flatMap fun location => f.ranges.map (·, location)

theorem around_append (address : UInt32) (first second : List (CodeRange × Location)) :
    around address (first ++ second) =
      closest Prod.fst (around address first) (around address second) := by
  rw [around, List.filter_append, innermost?_append]
  rfl

theorem around_addInstance (address : UInt32) (found : List (CodeRange × Location)) (r : CodeRange)
    (location : Location) :
    around address (SourceFunction.addInstance found r location) =
      closest Prod.fst (around address found) (around address [(r, location)]) := by
  unfold SourceFunction.addInstance
  split
  next known =>
    obtain ⟨⟨s, other⟩, member, same⟩ := List.any_eq_true.1 known
    obtain rfl : s = r := by simpa using same
    by_cases inside : s.contains address
    · have candidate : (s, other) ∈ found.filter (·.1.contains address) :=
        List.mem_filter.2 ⟨member, inside⟩
      cases nearest : around address found with
      | none =>
        rw [innermost?_eq_none Prod.fst nearest] at candidate
        cases candidate
      | some a =>
        have least := not_closer_innermost? Prod.fst nearest _ candidate
        refine (closest_eq_left Prod.fst fun c here => ?_).symm
        obtain rfl : (s, location) = c := by simpa [around, inside, innermost?] using here
        exact least
    · simp [around, inside, innermost?, closest_none]
  next => exact around_append address found [(r, location)]

theorem around_foldl (address : UInt32) (items found : List (CodeRange × Location)) :
    around address (items.foldl (fun found (r, l) => SourceFunction.addInstance found r l) found) =
      closest Prod.fst (around address found) (around address items) := by
  induction items generalizing found with
  | nil => exact (closest_none ..).symm
  | cons item rest ih =>
    have split_ : around address (item :: rest) = _ := around_append address [item] rest
    rw [List.foldl_cons, ih, around_addInstance, split_, closest_assoc]

theorem around_withInstances (address : UInt32) {f : SourceFunction} (bare : f.instances = []) :
    around address f.withInstances.instances = around address (ownInstances f) := by
  unfold SourceFunction.withInstances ownInstances
  cases f.frameBase with
  | none => simp [bare]
  | some location =>
    have run := around_foldl address (f.ranges.map (·, location)) []
    rw [List.foldl_map] at run
    simpa [bare, around, innermost?, closest] using run

theorem around_merged (address : UInt32) {functions : List SourceFunction} {f : SourceFunction}
    (bare : ∀ g ∈ functions, g.instances = []) (made : merged functions = some f) :
    around address f.instances = around address (functions.flatMap ownInstances) := by
  induction functions using List.reverseRecOn generalizing f with
  | nil => cases made
  | append_singleton before last ih =>
    have lastBare := around_withInstances address (bare last (by simp))
    rw [merged_concat] at made
    obtain rfl := Option.some.inj made
    rw [List.flatMap_append, List.flatMap_singleton]
    cases earlier : merged before with
    | none =>
      obtain rfl := eq_nil_of_merged earlier
      exact lastBare
    | some g =>
      have known := ih (fun h member => bare h (List.mem_append_left _ member)) earlier
      rw [around_append, ← known, ← lastBare]
      exact around_foldl address _ _

theorem frameBaseAt?_eq (f : SourceFunction) (address : UInt32) :
    f.frameBaseAt? address = ((around address f.instances).map (·.2)).or f.frameBase := by
  unfold SourceFunction.frameBaseAt? around
  cases innermost? Prod.fst (f.instances.filter (·.1.contains address)) <;> rfl

structure Frames (address : UInt32) (g : SourceFunction) (r : CodeRange) : Prop where
  framed : g.isFramed = true
  listed : r ∈ g.ranges
  inside : r.contains address = true

structure Innermost (functions : List SourceFunction) (address : UInt32) (g : SourceFunction)
    (r : CodeRange) : Prop where
  frames : Frames address g r
  least : ∀ h ∈ functions, ∀ s, Frames address h s → ¬s.Closer r
  -- No function inserted before has a range around the address that is just as close.
  first : ∃ before after, functions = before ++ g :: after ∧
    ∀ h ∈ before, ∀ s, Frames address h s → r.Closer s

theorem mem_around_iff (address : UInt32) (functions : List SourceFunction) (r : CodeRange)
    (location : Location) :
    (r, location) ∈ (functions.flatMap ownInstances).filter (·.1.contains address) ↔
      ∃ g ∈ functions, Frames address g r ∧ g.frameBase = some location := by
  simp only [List.mem_filter, List.mem_flatMap, ownInstances, List.mem_map, Option.mem_toList,
    Prod.mk.injEq]
  constructor
  · rintro ⟨⟨g, member, other, base, s, listed, rfl, rfl⟩, inside⟩
    exact ⟨g, member, ⟨by simp [SourceFunction.isFramed, base], listed, inside⟩, base⟩
  · rintro ⟨g, member, frames, base⟩
    exact ⟨⟨g, member, location, base, r, frames.listed, rfl, rfl⟩, frames.inside⟩

theorem Frames.exists_base {address : UInt32} {g : SourceFunction} {r : CodeRange}
    (frames : Frames address g r) : ∃ location, g.frameBase = some location :=
  Option.isSome_iff_exists.1 frames.framed

section

variable {functions : List SourceFunction} {address : UInt32} {g : SourceFunction} {r : CodeRange}

theorem of_around {nearest : CodeRange × Location}
    (found : around address (functions.flatMap ownInstances) = some nearest) :
    ∃ h ∈ functions, Frames address h nearest.1 ∧ h.frameBase = some nearest.2 :=
  (mem_around_iff address functions nearest.1 nearest.2).1 (innermost?_mem Prod.fst found)

theorem exists_around (member : g ∈ functions) (frames : Frames address g r) :
    ∃ nearest, around address (functions.flatMap ownInstances) = some nearest ∧
      ∀ h ∈ functions, ∀ s, Frames address h s → ¬s.Closer nearest.1 := by
  cases found : around address (functions.flatMap ownInstances) with
  | none =>
    obtain ⟨location, base⟩ := frames.exists_base
    have candidate := (mem_around_iff address functions r location).2 ⟨g, member, frames, base⟩
    rw [innermost?_eq_none Prod.fst found] at candidate
    cases candidate
  | some nearest =>
    refine ⟨nearest, rfl, fun h among s other => ?_⟩
    obtain ⟨location, base⟩ := other.exists_base
    exact not_closer_innermost? Prod.fst found _
      ((mem_around_iff address functions s location).2 ⟨h, among, other, base⟩)

theorem around_eq_none (unframed : ∀ h ∈ functions, ∀ s, ¬Frames address h s) :
    around address (functions.flatMap ownInstances) = none := by
  cases found : around address (functions.flatMap ownInstances) with
  | none => rfl
  | some nearest =>
    obtain ⟨h, among, frames, -⟩ := of_around found
    exact absurd frames (unframed h among nearest.1)

theorem exists_innermost (member : g ∈ functions) (frames : Frames address g r) :
    ∃ h s, Innermost functions address h s := by
  obtain ⟨nearest, found, least⟩ := exists_around member frames
  obtain ⟨owner, listed, ownerFrames, -⟩ := of_around found
  -- the first function with a range that is as close as the closest one
  obtain ⟨h, first⟩ : ∃ h, functions.find? (fun h => h.isFramed &&
      h.ranges.any fun s => s.contains address && decide ¬nearest.1.Closer s) = some h := by
    refine Option.isSome_iff_exists.1 (List.find?_isSome.2 ⟨owner, listed, ?_⟩)
    simp only [ownerFrames.framed, Bool.true_and, List.any_eq_true]
    exact ⟨nearest.1, ownerFrames.listed, by simp [ownerFrames.inside, CodeRange.closer_iff_rank]⟩
  obtain ⟨suits, before, after, rfl, earlier⟩ := List.find?_eq_some_iff_append.1 first
  simp only [Bool.and_eq_true, List.any_eq_true, decide_eq_true_eq] at suits
  obtain ⟨framed, s, inRanges, inside, close⟩ := suits
  rw [CodeRange.closer_iff_rank] at close
  refine ⟨h, s, ⟨framed, inRanges, inside⟩, fun other among t around_ => ?_,
    before, after, rfl, fun other among t around_ => ?_⟩
  · have far := least other among t around_
    rw [CodeRange.closer_iff_rank] at far ⊢
    omega
  · have skipped := earlier other among
    simp only [around_.framed, Bool.true_and, Bool.not_eq_true', List.any_eq_false,
      Bool.and_eq_true, decide_eq_true_eq, not_and, Decidable.not_not] at skipped
    have far := skipped t around_.listed around_.inside
    rw [CodeRange.closer_iff_rank] at far ⊢
    omega

theorem Innermost.around_eq (innermost : Innermost functions address g r) :
    (around address (functions.flatMap ownInstances)).map (·.2) = g.frameBase := by
  obtain ⟨before, after, rfl, first⟩ := innermost.first
  have least := innermost.least
  obtain ⟨nearest, own, close⟩ := exists_around (List.mem_singleton_self g) innermost.frames
  obtain ⟨owner, single, -, base⟩ := of_around own
  have closeToo := close g (List.mem_singleton_self g) r innermost.frames
  rw [CodeRange.closer_iff_rank] at closeToo
  have split_ : (before ++ g :: after).flatMap ownInstances =
      before.flatMap ownInstances ++ ([g].flatMap ownInstances ++ after.flatMap ownInstances) := by
    simp
  -- what comes before is farther away, and what comes after is no closer
  have later : ∀ c ∈ around address (after.flatMap ownInstances), ¬c.1.Closer nearest.1 := by
    intro c found
    obtain ⟨h, listed, frames, -⟩ := of_around found
    have far := least h (by simp [listed]) c.1 frames
    rw [CodeRange.closer_iff_rank] at far ⊢
    omega
  have earlier : ∀ c ∈ around address (before.flatMap ownInstances), nearest.1.Closer c.1 := by
    intro c found
    obtain ⟨h, listed, frames, -⟩ := of_around found
    have far := first h listed c.1 frames
    rw [CodeRange.closer_iff_rank] at far ⊢
    omega
  rw [split_, around_append, around_append, own, closest_eq_left Prod.fst later,
    closest_eq_right Prod.fst earlier, Option.map_some, ← base, List.mem_singleton.1 single]

end

/-- The frame base at an address is that of the inserted function with the closest range around the
address, of those that came with one; where there is no such range, it is the merged function's
own. -/
theorem frameBaseAt?_inserted {functions : List SourceFunction} {g : SourceFunction}
    (bare : ∀ h ∈ functions, h.instances = []) (member : g ∈ functions) :
    ∃ f, (inserted functions).named? g.name = some f ∧
      ∀ (address : UInt32) (base : Option Location), f.frameBaseAt? address = base ↔
        (∃ h r, Innermost (ofName functions g.name) address h r ∧ h.frameBase = base) ∨
          (∀ h ∈ ofName functions g.name, ∀ r, ¬Frames address h r) ∧ f.frameBase = base := by
  obtain ⟨f, found⟩ := exists_named? member
  refine ⟨f, found, fun address base => ?_⟩
  rw [named?_inserted] at found
  have bareNamed : ∀ h ∈ ofName functions g.name, h.instances = [] :=
    fun h among => bare h (mem_ofName.1 among).1
  rw [frameBaseAt?_eq, around_merged address bareNamed found]
  constructor
  · intro same
    by_cases framed : ∃ h ∈ ofName functions g.name, ∃ r, Frames address h r
    · obtain ⟨h, among, r, frames⟩ := framed
      obtain ⟨own, s, innermost⟩ := exists_innermost among frames
      obtain ⟨location, known⟩ := innermost.frames.exists_base
      rw [innermost.around_eq, known, Option.some_or] at same
      exact .inl ⟨own, s, innermost, known.trans same⟩
    · simp only [not_exists, not_and] at framed
      rw [around_eq_none framed, Option.map_none, Option.none_or] at same
      exact .inr ⟨framed, same⟩
  · rintro (⟨h, r, innermost, rfl⟩ | ⟨unframed, rfl⟩)
    · obtain ⟨location, known⟩ := innermost.frames.exists_base
      rw [innermost.around_eq, known, Option.some_or]
    · rw [around_eq_none unframed, Option.map_none, Option.none_or]

def copies : List SourceFunction :=
  [copyOf "f" ⟨0x100, 0x1ff, false⟩ (some 7), copyOf "f" ⟨0x140, 0x14f, false⟩ (some 6),
    copyOf "f" ⟨0x144, 0x153, true⟩ (some 5), copyOf "f" ⟨0x140, 0x14f, true⟩ (some 4),
    copyOf "f" ⟨0x148, 0x148, true⟩ none, copyOf "g" ⟨0x148, 0x149, true⟩ (some 3)]

theorem frameBaseAt?_copies :
    (∀ h ∈ copies, h.instances = []) ∧
      copyOf "f" ⟨0x100, 0x1ff, false⟩ (some 7) ∈ copies ∧
      ∃ f, (inserted copies).named? "f" = some f ∧
        f.frameBaseAt? 0x148 = some (inRegister 5) ∧ f.frameBaseAt? 0x200 = f.frameBase := by
  have bare : ∀ h ∈ copies, h.instances = [] := by decide
  have member : copyOf "f" ⟨0x100, 0x1ff, false⟩ (some 7) ∈ copies := by decide
  have least : ∀ h ∈ ofName copies "f", ∀ s ∈ h.ranges, h.isFramed = true →
      s.contains 0x148 = true → ¬s.Closer ⟨0x144, 0x153, true⟩ := by decide
  have first : ∀ h ∈ (ofName copies "f").take 2, ∀ s ∈ h.ranges,
      CodeRange.Closer ⟨0x144, 0x153, true⟩ s := by decide
  have outside : ∀ h ∈ ofName copies "f", ∀ s ∈ h.ranges, s.contains 0x200 = false := by decide
  have innermost : Innermost (ofName copies "f") 0x148
      (copyOf "f" ⟨0x144, 0x153, true⟩ (some 5)) ⟨0x144, 0x153, true⟩ := by
    refine ⟨⟨rfl, by decide, by decide⟩, fun h among s frames => ?_, (ofName copies "f").take 2,
      (ofName copies "f").drop 3, by decide, fun h among s frames => ?_⟩
    · exact least h among s frames.listed frames.framed frames.inside
    · exact first h among s frames.listed
  obtain ⟨f, found, at_⟩ := frameBaseAt?_inserted bare member
  refine ⟨bare, member, f, found, (at_ 0x148 _).2 (.inl ⟨_, _, innermost, rfl⟩),
    (at_ 0x200 _).2 (.inr ⟨fun h among s frames => ?_, rfl⟩)⟩
  exact absurd frames.inside (by simp [outside h among s frames.listed])

end At

end FunctionSet

end SourceScope
