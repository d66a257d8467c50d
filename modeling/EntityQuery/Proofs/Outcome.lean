import Mathlib.Data.List.Forall2

/-!
# Outcomes of computations that may fail

A computation in steps succeeds if each of its steps does, on what the step before returned. These
statements take a success apart into the successes of its steps, and put it together from them.
-/

set_option autoImplicit false

namespace EntityQuery

variable {ε α β : Type}

theorem ok_of_bind {first : Except ε α} {next : α → Except ε β} {result : β}
    (succeeds : (first >>= next) = .ok result) :
    ∃ value, first = .ok value ∧ next value = .ok result := by
  cases first with
  | error problem => cases succeeds
  | ok value => exact ⟨value, rfl, succeeds⟩

theorem bind_ok {first : Except ε α} {next : α → Except ε β} {value : α} {result : β}
    (firstOk : first = .ok value) (nextOk : next value = .ok result) :
    (first >>= next) = .ok result := by
  rw [firstOk]
  exact nextOk

/-- After a first step that succeeds, the outcome is that of the others. -/
theorem bind_of_ok {first : Except ε α} {next : α → Except ε β} {value : α}
    (firstOk : first = .ok value) : (first >>= next) = next value := by
  rw [firstOk]
  rfl

/-- A first step that fails is the outcome. -/
theorem bind_of_error {first : Except ε α} {next : α → Except ε β} {problem : ε}
    (fails : first = .error problem) : (first >>= next) = .error problem := by
  rw [fails]
  rfl

/-- A computation in steps fails in the first step or after it. -/
theorem error_of_bind {first : Except ε α} {next : α → Except ε β} {problem : ε}
    (fails : (first >>= next) = .error problem) :
    first = .error problem ∨ ∃ value, first = .ok value ∧ next value = .error problem := by
  cases first with
  | error other =>
      cases fails
      exact .inl rfl
  | ok value => exact .inr ⟨value, rfl, fails⟩

/-- Other words for its errors do not change a success. -/
theorem ok_of_mapError {first : Except ε α} {rename : ε → β} {value : α}
    (succeeds : first.mapError rename = .ok value) : first = .ok value := by
  cases first with
  | error problem => cases succeeds
  | ok other =>
      cases succeeds
      rfl

/-- A success with the result put into other words is a success. -/
theorem ok_of_map {outcome : Except ε α} {view : α → β} {shown : β}
    (succeeds : view <$> outcome = .ok shown) :
    ∃ value, outcome = .ok value ∧ view value = shown := by
  cases outcome with
  | error problem => cases succeeds
  | ok value =>
      cases succeeds
      exact ⟨value, rfl, rfl⟩

/-- Steps that may fail, on one item after another, succeed with the results of all. -/
theorem mapM_eq_ok_iff {step : α → Except ε β} {items : List α} {results : List β} :
    items.mapM step = .ok results ↔
      List.Forall₂ (fun item result => step item = .ok result) items results := by
  induction items generalizing results with
  | nil =>
      rw [List.mapM_nil, List.forall₂_nil_left_iff]
      exact ⟨fun same => (Except.ok.inj same).symm, fun same => same ▸ rfl⟩
  | cons item rest ih =>
      rw [List.mapM_cons, List.forall₂_cons_left_iff]
      constructor
      · intro succeeds
        obtain ⟨first, firstOk, others⟩ := ok_of_bind succeeds
        obtain ⟨later, laterOk, whole⟩ := ok_of_bind others
        exact ⟨first, later, firstOk, ih.mp laterOk, (Except.ok.inj whole).symm⟩
      · rintro ⟨first, later, firstOk, laterOk, rfl⟩
        exact bind_ok firstOk (bind_ok (ih.mpr laterOk) rfl)

/-- What each of many steps keeps holds after all of them. -/
theorem foldlM_keeps {step : β → α → Except ε β} {items : List α} {start final : β}
    (settled : β → Prop) (folds : items.foldlM step start = .ok final)
    (keeps : ∀ item ∈ items, ∀ current next, step current item = .ok next → settled current →
      settled next)
    (before : settled start) : settled final := by
  induction items generalizing start with
  | nil =>
      cases folds
      exact before
  | cons item rest ih =>
      rw [List.foldlM_cons] at folds
      obtain ⟨next, stepped, others⟩ := ok_of_bind folds
      exact ih others (fun other member => keeps other (List.mem_cons_of_mem _ member))
        (keeps item (List.mem_cons_self ..) start next stepped before)

/-- What one of many steps brings about holds after all of them, if those behind it keep it. -/
theorem foldlM_settles {step : β → α → Except ε β} {earlier later : List α} {item : α}
    {start final : β} (settled : β → Prop)
    (folds : (earlier ++ item :: later).foldlM step start = .ok final)
    (settles : ∀ current next, step current item = .ok next → settled next)
    (keeps : ∀ other ∈ later, ∀ current next, step current other = .ok next → settled current →
      settled next) :
    settled final := by
  rw [List.foldlM_append] at folds
  obtain ⟨current, -, folds⟩ := ok_of_bind folds
  rw [List.foldlM_cons] at folds
  obtain ⟨next, stepped, others⟩ := ok_of_bind folds
  exact foldlM_keeps settled others keeps (settles current next stepped)

/-- A computation whose result shows something has a result. -/
theorem exists_ok_of_shown {outcome : Except ε α} {view : α → β} {shown : β}
    (same : outcome.toOption.map view = some shown) :
    ∃ result, outcome = .ok result ∧ view result = shown := by
  cases outcome with
  | error problem => cases same
  | ok value => exact ⟨value, rfl, Option.some.inj same⟩

/-- A computation that fails whatever is shown of its result fails. -/
theorem error_of_shown {outcome : Except ε α} {view : α → β} {problem : ε}
    (fails : outcome.map view = .error problem) : outcome = .error problem := by
  cases outcome with
  | error other =>
      cases fails
      rfl
  | ok value => cases fails

end EntityQuery
