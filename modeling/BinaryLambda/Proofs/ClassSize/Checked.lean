import BinaryLambda.Proofs.ClassSize.Recurrence
import BinaryLambda.Proofs.ClassSize.Region
import BinaryLambda.Proofs.Outcome

/-!
Counts within a type, without a table.

`checkedClassSize` follows the recurrence and stops at the first class that does not
fit. The classes that the recurrence reads are no larger than the class, so it
counts every class that fits, and stops for every other (`checkedClassSize_eq_ok_iff`).
`checkedCount` first counts the region of a class in order; whether it stops depends
on the class alone as well (`checkedCount_eq_ok_iff`).
-/

namespace BinaryLambda

theorem eq_classSize_of_recurrence {bound : Int} {size value : Nat}
    {bodies parts : (smaller : Nat) → smaller < size → Except Error Nat}
    (bodies_eq : ∀ smaller lt value, bodies smaller lt = .ok value →
      value = classSize (bound + 1) smaller)
    (parts_eq : ∀ smaller lt value, parts smaller lt = .ok value →
      value = classSize bound smaller)
    (counted : recurrence (variableCount bound size) size bodies parts = .ok value) :
    value = classSize bound size := by
  rw [← run_recurrence_classSize bound size]
  refine recurrence_related
    (fun {α} (answer : Except Error α) (result : Id α) => ∀ value, answer = .ok value →
      value = result.run) ?_ ?_ ?_ ?_ value counted
  · rintro α value _ ⟨rfl⟩
    rfl
  · intro α β first second firstNext secondNext related nextRelated value ran
    obtain ⟨middle, firstRan, nextRan⟩ := bind_eq_ok_iff.mp ran
    rw [related middle firstRan] at nextRan
    exact nextRelated second.run value nextRan
  · exact fun smaller lt _ => bodies_eq smaller lt
  · exact fun smaller lt _ => parts_eq smaller lt

theorem recurrence_eq_ok {bound : Int} {size : Nat}
    {bodies parts : (smaller : Nat) → smaller < size → Except Error Nat}
    (bodies_eq : ∀ smaller lt, smaller + 2 = size →
      bodies smaller lt = .ok (classSize (bound + 1) smaller))
    (parts_eq : ∀ smaller lt, smaller + 2 ≤ size →
      parts smaller lt = .ok (classSize bound smaller)) :
    recurrence (variableCount bound size) size bodies parts = .ok (classSize bound size) := by
  rw [← run_recurrence_classSize bound size]
  refine recurrence_related
    (fun {α} (answer : Except Error α) (result : Id α) => answer = .ok result.run) ?_ ?_
    bodies_eq parts_eq
  · exact fun value => rfl
  · intro α β first second firstNext secondNext related nextRelated
    rw [related]
    exact nextRelated second.run

/-- The size of a class by the recurrence alone, where every step must fit the type. -/
def checkedClassSize (type : IntType) (bound size : Int) : Except Error Nat := do
  let value ← recurrence (variableCount bound size.toNat) size.toNat
    (fun smaller _ => checkedClassSize type (bound + 1) smaller)
    (fun smaller _ => checkedClassSize type bound smaller)
  if type.Fits value then
    return value
  else
    throw (.overflow (.int bound) size type value)
termination_by size.toNat

theorem checkedClassSize_sound {type : IntType} {bound size : Int} {value : Nat}
    (counted : checkedClassSize type bound size = .ok value) :
    value = classSize bound size.toNat ∧ type.Fits value := by
  induction length : size.toNat using Nat.strongRecOn generalizing bound size value with
  | ind length inductionHypothesis =>
      subst length
      rw [checkedClassSize] at counted
      obtain ⟨result, ran, stored⟩ := bind_eq_ok_iff.mp counted
      have right : result = classSize bound size.toNat := by
        refine eq_classSize_of_recurrence ?_ ?_ ran
        · intro smaller lt value counted
          exact (inductionHypothesis smaller lt counted (by simp)).1
        · intro smaller lt value counted
          exact (inductionHypothesis smaller lt counted (by simp)).1
      split at stored
      · next fits =>
          cases stored
          exact ⟨right, fits⟩
      · cases stored

theorem checkedClassSize_of_fits {type : IntType} {bound size : Int}
    (fits : type.Fits (classSize bound size.toNat)) :
    checkedClassSize type bound size = .ok (classSize bound size.toNat) := by
  induction length : size.toNat using Nat.strongRecOn generalizing bound size with
  | ind length inductionHypothesis =>
      subst length
      rw [checkedClassSize, recurrence_eq_ok]
      · exact if_pos fits
      · intro smaller lt reads
        rw [← reads] at fits
        have counted := @inductionHypothesis smaller lt (bound + 1) smaller
        exact counted (by simpa using fits.bodies) (by simp)
      · intro smaller lt reads
        obtain ⟨body, length_eq⟩ := Nat.exists_eq_add_of_le' (show 2 ≤ size.toNat by omega)
        rw [length_eq] at fits
        have counted := @inductionHypothesis smaller lt bound smaller
        exact counted (by simpa using fits.parts (by omega)) (by simp)

theorem checkedClassSize_eq_ok_iff {type : IntType} {bound size : Int} {value : Nat} :
    checkedClassSize type bound size = .ok value ↔
      value = classSize bound size.toNat ∧ type.Fits value := by
  constructor
  · exact checkedClassSize_sound
  · rintro ⟨rfl, fits⟩
    exact checkedClassSize_of_fits fits

/-- An overflow that shows a class that does not fit, with its right size. -/
def IsMisfit (type : IntType) (error : Error) : Prop :=
  ∃ key : Key, error = .overflow (.int key.bound) key.size type key.classSize ∧
    ¬ type.Fits key.classSize

theorem IsMisfit.kind_eq {type : IntType} {error : Error} (misfit : IsMisfit type error) :
    error.kind = .numericOverflow := by
  obtain ⟨key, rfl, _⟩ := misfit
  rfl

theorem isMisfit_of_recurrence {type : IntType} {leaves size : Nat} {error : Error}
    {bodies parts : (smaller : Nat) → smaller < size → Except Error Nat}
    (bodies_misfit : ∀ smaller lt error, bodies smaller lt = .error error → IsMisfit type error)
    (parts_misfit : ∀ smaller lt error, parts smaller lt = .error error → IsMisfit type error)
    (failed : recurrence leaves size bodies parts = .error error) : IsMisfit type error := by
  refine recurrence_holds
    (fun {α} (answer : Except Error α) => ∀ error, answer = .error error → IsMisfit type error)
    ?_ ?_ ?_ ?_ error failed
  · rintro α value _ ⟨⟩
  · intro α β first next held nextHeld error ran
    rcases bind_eq_error_iff.mp ran with firstFailed | ⟨value, _, nextFailed⟩
    · exact held error firstFailed
    · exact nextHeld value error nextFailed
  · exact fun smaller lt _ => bodies_misfit smaller lt
  · exact fun smaller lt _ => parts_misfit smaller lt

theorem isMisfit_of_checkedClassSize {type : IntType} {bound size : Int} {error : Error}
    (failed : checkedClassSize type bound size = .error error) : IsMisfit type error := by
  induction length : size.toNat using Nat.strongRecOn generalizing bound size error with
  | ind length inductionHypothesis =>
      subst length
      rw [checkedClassSize] at failed
      rcases bind_eq_error_iff.mp failed with failed | ⟨result, ran, refused⟩
      · refine isMisfit_of_recurrence ?_ ?_ failed
        · intro smaller lt error failed
          exact inductionHypothesis smaller lt failed (by simp)
        · intro smaller lt error failed
          exact inductionHypothesis smaller lt failed (by simp)
      · have right : result = classSize bound size.toNat := by
          refine eq_classSize_of_recurrence ?_ ?_ ran
          · exact fun smaller lt value counted => (checkedClassSize_sound counted).1
          · exact fun smaller lt value counted => (checkedClassSize_sound counted).1
        subst right
        split at refused
        · cases refused
        · next misfit =>
            cases refused
            exact ⟨⟨bound, size⟩, rfl, misfit⟩

/-- The size of a class, after all classes in its region have been counted in order. -/
def checkedCount (type : IntType) (bound size : Nat) : Except Error Nat := do
  (region bound size).forM fun key => discard (checkedClassSize type key.bound key.size)
  return classSize bound size

theorem checkedCount_eq_ok_iff {type : IntType} {bound size value : Nat} :
    checkedCount type bound size = .ok value ↔
      value = classSize bound size ∧ type.Fits value := by
  rw [checkedCount, bind_eq_ok_iff]
  constructor
  · rintro ⟨_, filled, ⟨⟩⟩
    have whole := forM_eq_ok_iff.mp filled _ (self_mem_region bound size)
    obtain ⟨value, counted⟩ := discard_eq_ok_iff.mp whole
    obtain ⟨rfl, fits⟩ := checkedClassSize_sound counted
    exact ⟨rfl, fits⟩
  · rintro ⟨rfl, fits⟩
    refine ⟨(), forM_eq_ok_iff.mpr fun key member => ?_, rfl⟩
    rw [checkedClassSize_of_fits (fits.of_mem_region member)]
    rfl

theorem isMisfit_of_checkedCount {type : IntType} {bound size : Nat} {error : Error}
    (failed : checkedCount type bound size = .error error) : IsMisfit type error := by
  rcases bind_eq_error_iff.mp failed with failed | ⟨_, _, ⟨⟩⟩
  obtain ⟨_, key, _, _, _, keyFailed⟩ := forM_eq_error_iff.mp failed
  exact isMisfit_of_checkedClassSize (discard_eq_error_iff.mp keyFailed)

end BinaryLambda
