import SourceScope.Proofs.Model.Updates

set_option autoImplicit false

namespace SourceScope

namespace SourceModel

variable {model : SourceModel} {pc : UInt32}

structure Visible (model : SourceModel) (pc : UInt32) (i : Nat) (l : LocalVariable) : Prop where
  listed : model.variableSet.locals[i]? = some l
  inRange : l.range.first ≤ pc ∧ pc ≤ l.range.last
  inFunction : ∀ f, model.functionOf? l = some f → f.contains pc = true

structure Leads (model : SourceModel) (pc : UInt32) (i : Nat) (l : LocalVariable) : Prop where
  visible : model.Visible pc i l
  least : ∀ j m, model.Visible pc j m → m.variable_.name = l.variable_.name →
    l.range.size < m.range.size ∨ l.range.size = m.range.size ∧ i ≤ j

theorem isVisible_iff {l : LocalVariable} : model.isVisible pc l = true ↔
    (l.range.first ≤ pc ∧ pc ≤ l.range.last) ∧
      ∀ f, model.functionOf? l = some f → f.contains pc = true := by
  simp [isVisible, CodeRange.contains, Option.all_eq_true]

theorem mem_visibleLocals {i : Nat} {l : LocalVariable} :
    (i, l) ∈ model.visibleLocals pc ↔ model.Visible pc i l := by
  simp only [visibleLocals, List.mem_filter, List.mem_mapIdx, Prod.mk.injEq, isVisible_iff]
  constructor
  · rintro ⟨⟨_, bound, rfl, rfl⟩, inRange, inFunction⟩
    exact ⟨List.getElem?_eq_getElem bound, inRange, inFunction⟩
  · rintro ⟨listed, inRange, inFunction⟩
    obtain ⟨bound, rfl⟩ := List.getElem?_eq_some_iff.1 listed
    exact ⟨⟨i, bound, rfl, rfl⟩, inRange, inFunction⟩

theorem Leads.unique {i j : Nat} {l m : LocalVariable} (first : model.Leads pc i l)
    (second : model.Leads pc j m) (name : m.variable_.name = l.variable_.name) : j = i := by
  have := first.least j m second.visible name
  have := second.least i l first.visible name.symm
  omega

section Scan

structure Best (seen best : List (Nat × LocalVariable)) : Prop where
  among : ∀ b ∈ best, b ∈ seen
  named : ∀ p ∈ seen, ∃ b ∈ best, b.2.variable_.name = p.2.variable_.name
  least : ∀ b ∈ best, ∀ p ∈ seen, p.2.variable_.name = b.2.variable_.name →
    b.2.range.size < p.2.range.size ∨ b.2.range.size = p.2.range.size ∧ b.1 ≤ p.1

variable {seen best rest : List (Nat × LocalVariable)} {p : Nat × LocalVariable}

theorem Best.keep (so : Best seen best) (later : ∀ q ∈ seen, q.1 < p.1)
    {b : Nat × LocalVariable} (present : b ∈ best)
    (name : b.2.variable_.name = p.2.variable_.name) (small : b.2.range.size ≤ p.2.range.size) :
    Best (seen ++ [p]) best where
  among c kept := List.mem_append_left _ (so.among c kept)
  named := by
    simp only [List.forall_mem_append, List.forall_mem_singleton]
    exact ⟨so.named, b, present, name⟩
  least := by
    simp only [List.forall_mem_append, List.forall_mem_singleton]
    intro c kept
    refine ⟨so.least c kept, fun same => ?_⟩
    -- the kept one of this name is no larger than `b`
    have := so.least c kept b (so.among b present) (name.trans same)
    have := later c (so.among c kept)
    omega

theorem Best.replace (so : Best seen best)
    (larger : ∀ b ∈ best, b.2.variable_.name = p.2.variable_.name →
      p.2.range.size < b.2.range.size) :
    Best (seen ++ [p]) (p :: best.filter fun b => b.2.variable_.name != p.2.variable_.name) where
  among := by
    simp only [List.forall_mem_cons, List.mem_filter, List.mem_append, List.mem_singleton]
    exact ⟨.inr trivial, fun b kept => .inl (so.among b kept.1)⟩
  named := by
    simp only [List.forall_mem_append, List.forall_mem_singleton, List.exists_mem_cons_iff,
      List.mem_filter, bne_iff_ne]
    refine ⟨fun q earlier => ?_, .inl trivial⟩
    by_cases same : p.2.variable_.name = q.2.variable_.name
    · exact .inl same
    · obtain ⟨b, kept, name⟩ := so.named q earlier
      exact .inr ⟨b, ⟨kept, fun other => same (other.symm.trans name)⟩, name⟩
  least := by
    simp only [List.forall_mem_append, List.forall_mem_singleton]
    rw [List.forall_mem_cons]
    refine ⟨⟨fun q earlier same => ?_, fun _ => .inr ⟨rfl, Nat.le_refl _⟩⟩, ?_⟩
    · obtain ⟨b, kept, name⟩ := so.named q earlier
      have := so.least b kept q earlier name.symm
      have := larger b kept (name.trans same)
      omega
    · intro b kept
      rw [List.mem_filter, bne_iff_ne] at kept
      exact ⟨so.least b kept.1, fun same => absurd same.symm kept.2⟩

theorem Best.step (so : Best seen best) (later : ∀ q ∈ seen, q.1 < p.1) :
    Best (seen ++ [p]) (keepBest best p) := by
  unfold keepBest
  split
  next found =>
    obtain ⟨b, present, better⟩ := List.any_eq_true.1 found
    simp only [Bool.and_eq_true, beq_iff_eq, decide_eq_true_eq] at better
    exact so.keep later present better.1 better.2
  next absent =>
    refine so.replace fun b present name => Nat.lt_of_not_le fun small => absent ?_
    exact List.any_eq_true.2 ⟨b, present, by simp [name, small]⟩

theorem Best.foldl (so : Best seen best) (ascending : (seen ++ rest).Pairwise (·.1 < ·.1)) :
    Best (seen ++ rest) (rest.foldl keepBest best) := by
  induction rest generalizing seen best with
  | nil => simpa using so
  | cons p rest ih =>
    have later : ∀ q ∈ seen, q.1 < p.1 := fun q earlier =>
      (List.pairwise_append.1 ascending).2.2 q earlier p List.mem_cons_self
    have next := ih (so.step later) (by simpa using ascending)
    simpa using next

theorem best_bestLocals (model : SourceModel) (pc : UInt32) :
    Best (model.visibleLocals pc) (model.bestLocals pc) := by
  have start : Best [] [] := ⟨by simp, by simp, by simp⟩
  exact start.foldl (visibleLocals_ascending model pc)

theorem mem_bestLocals {i : Nat} {l : LocalVariable} :
    (i, l) ∈ model.bestLocals pc ↔ model.Leads pc i l := by
  have best := best_bestLocals model pc
  have leads {i : Nat} {l : LocalVariable} (kept : (i, l) ∈ model.bestLocals pc) :
      model.Leads pc i l :=
    ⟨mem_visibleLocals.1 (best.among _ kept), fun j m other name =>
      best.least _ kept (j, m) (mem_visibleLocals.2 other) name⟩
  refine ⟨leads, fun first => ?_⟩
  obtain ⟨⟨j, m⟩, kept, name⟩ := best.named (i, l) (mem_visibleLocals.2 first.visible)
  obtain rfl := first.unique (leads kept) name
  obtain rfl := Option.some.inj ((leads kept).visible.listed.symm.trans first.visible.listed)
  exact kept

theorem mem_scopeAt {i : Nat} : i ∈ model.scopeAt pc ↔ ∃ l, model.Leads pc i l := by
  simp [scopeAt, scopedLocals, mem_bestLocals]

theorem exists_leads {i : Nat} {l : LocalVariable} (visible : model.Visible pc i l) :
    ∃ j m, model.Leads pc j m ∧ m.variable_.name = l.variable_.name := by
  obtain ⟨⟨j, m⟩, kept, name⟩ :=
    (best_bestLocals model pc).named (i, l) (mem_visibleLocals.2 visible)
  exact ⟨j, m, mem_bestLocals.1 kept, name⟩

end Scan

theorem inScope_leads (model : SourceModel) (pc : UInt32) :
    (model.scopeAt pc).Pairwise (· < ·) ∧
      (model.scopeAt pc).map (model.variableSet.locals[·]?) = (model.inScope pc).map some ∧
      (∀ i, i ∈ model.scopeAt pc ↔ ∃ l, model.Leads pc i l) ∧
      ∀ name, (∃ i l, model.Visible pc i l ∧ l.variable_.name = name) →
        ∃! i, ∃ l, model.Leads pc i l ∧ l.variable_.name = name := by
  refine ⟨scopeAt_ascending model pc, ?_, fun i => mem_scopeAt, ?_⟩
  · simp only [scopeAt, inScope, List.map_map]
    exact List.map_congr_left fun p member => getElem?_scopedLocals member
  · rintro _ ⟨i, l, visible, rfl⟩
    obtain ⟨j, m, leads, name⟩ := exists_leads visible
    refine ⟨j, ⟨m, leads, name⟩, ?_⟩
    rintro k ⟨n, other, same⟩
    exact leads.unique other (same.trans name.symm)

end SourceModel

end SourceScope
