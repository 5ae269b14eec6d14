import Mathlib
import SourceScope.Proofs.Model.InScope

set_option autoImplicit false

namespace SourceScope

namespace SourceModel

def Unresolved (v : Variable) : Prop :=
  ∀ r ∈ v.resolutions, ∀ address value, r ≠ .resolved address value

theorem Idle.unresolved {v : Variable} (idle : Idle v) : Unresolved v := by
  intro r member address value
  rcases idle r member with rfl | rfl <;> simp

theorem scopeAt_eq_nil_iff {model : SourceModel} {pc : UInt32} :
    model.scopeAt pc = [] ↔ ¬∃ i l, model.Visible pc i l := by
  rw [List.eq_nil_iff_forall_not_mem]
  constructor
  · rintro none_ ⟨i, l, visible⟩
    obtain ⟨j, m, leads, -⟩ := exists_leads visible
    exact none_ j (mem_scopeAt.2 ⟨m, leads⟩)
  · rintro none_ i member
    obtain ⟨l, leads⟩ := mem_scopeAt.1 member
    exact none_ ⟨i, l, leads.visible⟩

section

variable {initial model : SourceModel} {latest : Latest} {state : Coprocessor}

theorem environment_unreadable (unreadable : state.register model.settings.pcRegister = none) :
    model.environment state = ⟨state, 0, model.frame, none⟩ := by
  rw [environment, unreadable, Option.getD_none]

theorem frameBase_unreadable (unreadable : state.register model.settings.pcRegister = none) :
    model.frameBase state = .error (.registerUnavailable model.settings.pcRegister) := by
  simp only [frameBase, unreadable]
  rfl

theorem Follows.active_unreadable (follows : initial.Follows latest model)
    (unreadable : state.register initial.settings.pcRegister = none) :
    (model.updateLocals state).active =
      (initial.inScope 0).map (initial.updateLocal ⟨state, 0, initial.frame, none⟩) := by
  rw [(follows.updateLocals state).result rfl, environment_unreadable unreadable]

theorem Follows.updateLocals_nothing (follows : initial.Follows latest model)
    (unreadable : state.register initial.settings.pcRegister = none)
    (nothing : ¬∃ i l, initial.Visible 0 i l) :
    ∀ l ∈ (model.updateLocals state).variableSet.locals, Unresolved l.variable_ := by
  have after := follows.updateLocals state
  have active : (model.updateLocals state).activeLocals =
      initial.scopeAt (initial.environment state).pc := after.active
  rw [environment_unreadable unreadable, scopeAt_eq_nil_iff.2 nothing] at active
  intro l member
  obtain ⟨i, listed⟩ := List.mem_iff_getElem?.1 member
  exact (after.idle i l listed (by simp [active])).unresolved

end

/-- Where the program counter cannot be read, the frame base is refused for that. Locals are reported
and evaluated as at address 0; none is reported and none is resolved exactly if none is visible
there. -/
theorem updateLocals_unreadable {settings : Settings} {files : FileSystem}
    {disassemble : Disassembler} {binary : Binary} {initial : SourceModel}
    (built : build settings files disassemble binary = .ok initial) (calls : List Call)
    {state : Coprocessor} (unreadable : state.register initial.settings.pcRegister = none) :
    (initial.run calls).frameBase state =
      .error (.registerUnavailable initial.settings.pcRegister) ∧
    ((initial.run calls).updateLocals state).active =
      (initial.inScope 0).map (initial.updateLocal ⟨state, 0, initial.frame, none⟩) ∧
    (((initial.run calls).updateLocals state).active = [] ∧
        (∀ l ∈ ((initial.run calls).updateLocals state).variableSet.locals,
          Unresolved l.variable_) ↔
      ¬∃ i l, initial.Visible 0 i l) := by
  obtain ⟨fresh, inactive⟩ := build_fresh built
  have follows : initial.Follows (Latest.of calls) (initial.run calls) :=
    (Follows.start fresh inactive).foldl calls
  have active := follows.active_unreadable unreadable
  have empty : ((initial.run calls).updateLocals state).active = [] ↔
      ¬∃ i l, initial.Visible 0 i l := by
    rw [active, ← scopeAt_eq_nil_iff, inScope, scopeAt]
    simp
  refine ⟨?_, active, fun both => empty.1 both.1, fun nothing => ?_⟩
  · rw [frameBase_unreadable (by rw [follows.settings]; exact unreadable), follows.settings]
  · exact ⟨empty.2 nothing, follows.updateLocals_nothing unreadable nothing⟩

def onlyRegister (number : UInt16) (word : UInt32) : Coprocessor :=
  ⟨some, fun asked => if asked = number then some word else none⟩

open Sample in
def resetCode : Binary :=
  code 0 (nops 2) [function "f" 0 4] <| debug (localKinds expressionForm)
    (unitWithInt <| functionAt 0 4 (variable_ 3 "x" (expression [0x70, 0]) ++ [0])) []

set_option maxRecDepth 20000 in
theorem resetCode_active :
    (build .default noFiles Opcode.sweep resetCode).toOption.map (fun initial =>
      (initial.settings.pcRegister,
        (initial.updateLocals (onlyRegister 0 0x20)).active.map (·.variable_.resolution))) =
      some (15, [.resolved (some 0x20) (some 0x20)]) := by
  cbv

set_option maxRecDepth 20000 in
theorem oneLocal_unreadable :
    (build .default noFiles Opcode.sweep oneLocal).toOption.map (fun initial =>
      (initial.settings.pcRegister, initial.scopeAt 0,
        (initial.run [.updateLocals (stoppedAt 0x100)]).activeLocals)) = some (15, [], [0]) := by
  cbv

theorem updateLocals_unreadable_oneLocal :
    ∃ initial, build .default noFiles Opcode.sweep oneLocal = .ok initial ∧
      (onlyRegister 0 0x20).register initial.settings.pcRegister = none ∧
      (initial.run [.updateLocals (stoppedAt 0x100)]).activeLocals = [0] ∧
      (initial.run [.updateLocals (stoppedAt 0x100)]).frameBase (onlyRegister 0 0x20) =
        .error (.registerUnavailable 15) ∧
      ((initial.run [.updateLocals (stoppedAt 0x100)]).updateLocals (onlyRegister 0 0x20)).active =
        [] := by
  obtain ⟨initial, built, facts⟩ := exists_ok oneLocal_unreadable
  simp only [Prod.mk.injEq] at facts
  obtain ⟨counter, nothing, before⟩ := facts
  have unreadable : (onlyRegister 0 0x20).register initial.settings.pcRegister = none := by
    rw [counter]
    rfl
  obtain ⟨refused, -, quiet⟩ :=
    updateLocals_unreadable built [.updateLocals (stoppedAt 0x100)] unreadable
  rw [counter] at refused
  exact ⟨initial, built, unreadable, before, refused, (quiet.2 (scopeAt_eq_nil_iff.1 nothing)).1⟩

/-- With the program counter unreadable, the local at address 0 is reported and resolved. -/
theorem resetCode_reports :
    ∃ initial, build .default noFiles Opcode.sweep resetCode = .ok initial ∧
      (onlyRegister 0 0x20).register initial.settings.pcRegister = none ∧
      ∃ l ∈ (initial.updateLocals (onlyRegister 0 0x20)).active,
        l.variable_.resolution = .resolved (some 0x20) (some 0x20) := by
  obtain ⟨initial, built, facts⟩ := exists_ok resetCode_active
  obtain ⟨counter, resolutions⟩ := Prod.mk.inj facts
  refine ⟨initial, built, by rw [counter]; rfl, ?_⟩
  have member : Resolution.resolved (some 0x20) (some 0x20) ∈
      (initial.updateLocals (onlyRegister 0 0x20)).active.map (·.variable_.resolution) := by
    rw [resolutions]
    exact List.mem_cons_self
  exact List.mem_map.1 member

end SourceModel

end SourceScope
