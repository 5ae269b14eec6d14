set_option autoImplicit false

namespace SourceScope

variable {E A B : Type}

theorem bind_eq_ok {result : Except E A} {next : A → Except E B} {b : B} :
    (result >>= next) = .ok b ↔ ∃ a, result = .ok a ∧ next a = .ok b := by
  cases result <;> simp [bind, Except.bind]

theorem bind_eq_error {result : Except E A} {next : A → Except E B} {cause : E} :
    (result >>= next) = .error cause ↔
      result = .error cause ∨ ∃ a, result = .ok a ∧ next a = .error cause := by
  cases result <;> simp [bind, Except.bind]

theorem map_eq_error {result : Except E A} {f : A → B} {cause : E} :
    f <$> result = .error cause ↔ result = .error cause := by
  cases result <;> simp [Functor.map, Except.map]

theorem toOption_eq_some_iff {result : Except E A} {a : A} :
    result.toOption = some a ↔ result = .ok a := by
  cases result <;> simp [Except.toOption]

theorem exists_ok {result : Except E A} {f : A → B} {b : B}
    (given : result.toOption.map f = some b) : ∃ a, result = .ok a ∧ f a = b := by
  obtain ⟨a, accepted, same⟩ := Option.map_eq_some_iff.1 given
  exact ⟨a, toOption_eq_some_iff.1 accepted, same⟩

theorem mapM_cons_eq_ok {f : A → Except E B} {a : A} {items : List A} {made : List B} :
    (a :: items).mapM f = .ok made ↔
      ∃ first rest, f a = .ok first ∧ items.mapM f = .ok rest ∧ made = first :: rest := by
  rw [List.mapM_cons, bind_eq_ok]
  constructor
  · rintro ⟨first, atFirst, made⟩
    obtain ⟨rest, atRest, same⟩ := bind_eq_ok.1 made
    exact ⟨first, rest, atFirst, atRest, (Except.ok.inj same).symm⟩
  · rintro ⟨first, rest, atFirst, atRest, rfl⟩
    exact ⟨first, atFirst, bind_eq_ok.2 ⟨rest, atRest, rfl⟩⟩

theorem mem_mapM_iff {f : A → Except E B} {items : List A} {made : List B}
    (accepted : items.mapM f = .ok made) (b : B) : b ∈ made ↔ ∃ a ∈ items, f a = .ok b := by
  induction items generalizing made with
  | nil =>
    obtain rfl := Except.ok.inj accepted
    simp
  | cons a rest ih =>
    obtain ⟨first, later, atFirst, atRest, rfl⟩ := mapM_cons_eq_ok.1 accepted
    simp [ih atRest, atFirst, eq_comm]

theorem exists_of_mapM {f : A → Except E B} {items : List A} {made : List B}
    (accepted : items.mapM f = .ok made) {a : A} (member : a ∈ items) : ∃ b, f a = .ok b := by
  induction items generalizing made with
  | nil => cases member
  | cons head rest ih =>
    obtain ⟨first, later, atFirst, atRest, -⟩ := mapM_cons_eq_ok.1 accepted
    rcases List.mem_cons.1 member with rfl | member
    · exact ⟨first, atFirst⟩
    · exact ih atRest member

end SourceScope
