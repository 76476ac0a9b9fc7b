/-!
When a computation that may fail succeeds, and where it fails.
-/

namespace BinaryLambda

variable {ε α β : Type}

theorem bind_eq_ok_iff {first : Except ε α} {next : α → Except ε β} {result : β} :
    first >>= next = .ok result ↔ ∃ value, first = .ok value ∧ next value = .ok result := by
  cases first with
  | error error =>
      constructor
      · rintro ⟨⟩
      · rintro ⟨_, ⟨⟩, _⟩
  | ok value =>
      constructor
      · exact fun ran => ⟨value, rfl, ran⟩
      · rintro ⟨_, ⟨⟩, ran⟩
        exact ran

theorem bind_eq_error_iff {first : Except ε α} {next : α → Except ε β} {error : ε} :
    first >>= next = .error error ↔
      first = .error error ∨ ∃ value, first = .ok value ∧ next value = .error error := by
  cases first with
  | error other =>
      constructor
      · rintro ⟨⟩
        exact .inl rfl
      · rintro (⟨⟨⟩⟩ | ⟨_, ⟨⟩, _⟩)
        rfl
  | ok value =>
      constructor
      · exact fun failed => .inr ⟨value, rfl, failed⟩
      · rintro (⟨⟨⟩⟩ | ⟨_, ⟨⟩, failed⟩)
        exact failed

theorem discard_eq_ok_iff {first : Except ε α} :
    discard first = .ok () ↔ ∃ value, first = .ok value := by
  cases first with
  | error error =>
      constructor
      · rintro ⟨⟩
      · rintro ⟨_, ⟨⟩⟩
  | ok value => exact ⟨fun _ => ⟨value, rfl⟩, fun _ => rfl⟩

theorem discard_eq_error_iff {first : Except ε α} {error : ε} :
    discard first = .error error ↔ first = .error error := by
  cases first with
  | error other =>
      constructor <;> rintro ⟨⟩ <;> rfl
  | ok value =>
      constructor <;> rintro ⟨⟩

theorem forM_eq_ok_iff {values : List α} {check : α → Except ε Unit} :
    values.forM check = .ok () ↔ ∀ value ∈ values, check value = .ok () := by
  induction values with
  | nil => exact ⟨fun _ => by simp, fun _ => rfl⟩
  | cons value values inductionHypothesis =>
      rw [List.forM, bind_eq_ok_iff, List.forall_mem_cons, ← inductionHypothesis]
      exact ⟨fun ⟨_, head, tail⟩ => ⟨head, tail⟩, fun ⟨head, tail⟩ => ⟨_, head, tail⟩⟩

/-- The first check that fails decides the error; those after it are not made. -/
theorem forM_eq_error_iff {values : List α} {check : α → Except ε Unit} {error : ε} :
    values.forM check = .error error ↔
      ∃ before value after, values = before ++ value :: after ∧
        (∀ other ∈ before, check other = .ok ()) ∧ check value = .error error := by
  induction values with
  | nil =>
      constructor
      · rintro ⟨⟩
      · rintro ⟨before, value, after, values_eq, _⟩
        simp at values_eq
  | cons head values inductionHypothesis =>
      rw [List.forM, bind_eq_error_iff, inductionHypothesis]
      constructor
      · rintro (failed | ⟨_, passed, before, value, after, rfl, allPassed, failed⟩)
        · exact ⟨[], head, values, rfl, by simp, failed⟩
        · exact ⟨head :: before, value, after, rfl,
            List.forall_mem_cons.mpr ⟨passed, allPassed⟩, failed⟩
      · rintro ⟨before, value, after, values_eq, allPassed, failed⟩
        cases before with
        | nil =>
            obtain ⟨rfl, rfl⟩ := List.cons.inj values_eq
            exact .inl failed
        | cons first before =>
            obtain ⟨rfl, rfl⟩ := List.cons.inj values_eq
            obtain ⟨passed, restPassed⟩ := List.forall_mem_cons.mp allPassed
            exact .inr ⟨(), passed, before, value, after, rfl, restPassed, failed⟩

theorem mapM_eq_ok_iff {check : α → Except ε β} {expected : α → β} {passes : α → Prop}
    (each : ∀ value result, check value = .ok result ↔ result = expected value ∧ passes value)
    {values : List α} {results : List β} :
    values.mapM check = .ok results ↔
      results = values.map expected ∧ ∀ value ∈ values, passes value := by
  induction values generalizing results with
  | nil =>
      constructor
      · rintro ⟨⟩
        simp
      · rintro ⟨rfl, _⟩
        rfl
  | cons value values inductionHypothesis =>
      rw [List.mapM_cons, bind_eq_ok_iff, List.map_cons, List.forall_mem_cons]
      simp only [bind_eq_ok_iff, each, inductionHypothesis]
      constructor
      · rintro ⟨_, ⟨rfl, passed⟩, _, ⟨rfl, restPassed⟩, ⟨⟩⟩
        exact ⟨rfl, passed, restPassed⟩
      · rintro ⟨rfl, passed, restPassed⟩
        exact ⟨_, ⟨rfl, passed⟩, _, ⟨rfl, restPassed⟩, rfl⟩

theorem exists_of_mapM_eq_error {check : α → Except ε β} {values : List α} {error : ε}
    (failed : values.mapM check = .error error) : ∃ value ∈ values, check value = .error error := by
  induction values with
  | nil => cases failed
  | cons value values inductionHypothesis =>
      rw [List.mapM_cons] at failed
      rcases bind_eq_error_iff.mp failed with headFailed | ⟨_, _, failed⟩
      · exact ⟨value, List.mem_cons_self, headFailed⟩
      · rcases bind_eq_error_iff.mp failed with restFailed | ⟨_, _, ⟨⟩⟩
        obtain ⟨other, member, otherFailed⟩ := inductionHypothesis restFailed
        exact ⟨other, List.mem_cons_of_mem value member, otherFailed⟩

end BinaryLambda
