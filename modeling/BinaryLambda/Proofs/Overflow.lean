import BinaryLambda.Proofs.Bench

/-!
When counting overflows.

A count is refused if and only if it does not fit the type of the table. A count that
fits is never refused for another class that is counted on the way to it, whatever the
table was used for before.
-/

namespace BinaryLambda

open Counting CountTable

theorem IntType.fits_iff {type : IntType} {max value : Nat} (bounded : type.max? = some max) :
    type.Fits value ↔ value ≤ max := by
  simp [Fits, bounded]

theorem exists_overflow_of_isMisfit {α : Type} {type : IntType} {checked : Except Error α}
    (misfits : ∀ error, checked = .error error → IsMisfit type error)
    (refused : ∀ value, checked ≠ .ok value) :
    ∃ error, checked = .error error ∧ error.kind = .numericOverflow := by
  cases outcome : checked with
  | ok value => exact absurd outcome (refused value)
  | error error => exact ⟨error, rfl, (misfits error outcome).kind_eq⟩

theorem exists_overflow_of_not_fits {type : IntType} {bound size : Nat}
    (misfit : ¬ type.Fits (classSize bound size)) :
    ∃ error, checkedCount type bound size = .error error ∧ error.kind = .numericOverflow := by
  apply exists_overflow_of_isMisfit fun _ => isMisfit_of_checkedCount
  intro value counted
  obtain ⟨rfl, fits⟩ := checkedCount_eq_ok_iff.mp counted
  exact misfit fits

theorem count_onFresh_unbounded (bound size : Nat) :
    (count bound size).onFresh .unbounded = .ok (classSize bound size) := by
  have answered := count_answers bound size _ (sound_fresh .unbounded).soundFrom
  exact answered.1.trans (checkedCount_eq_ok_iff.mpr ⟨rfl, IntType.fits_unbounded _⟩)

theorem eq_classSize_of_count_onFresh {bound size total : Nat}
    (counted : (count bound size).onFresh .unbounded = .ok total) :
    total = classSize bound size :=
  Except.ok.inj (counted.symm.trans (count_onFresh_unbounded bound size))

/-- On a table of fixed width a count is refused exactly if the count of an unbounded
table is too large for the type. -/
theorem count_overflow_iff {type : IntType} {max : Nat} (bounded : type.max? = some max)
    (operations : List Operation) (bound size : Nat) :
    let answer := ((count bound size).on ((Bench.fresh type).run operations).table).1
    ∃ total, (count bound size).onFresh .unbounded = .ok total ∧
      ((∃ error, answer = .error error ∧ error.kind = .numericOverflow) ↔ max < total) ∧
      (total ≤ max → answer = .ok total) := by
  intro answer
  have answered : answer = checkedCount type bound size :=
    (count_answers bound size _ (Bench.soundFrom_run_fresh type operations)).1
  refine ⟨classSize bound size, count_onFresh_unbounded bound size, ⟨?_, ?_⟩, ?_⟩
  · rintro ⟨error, failed, _⟩
    by_contra notAbove
    have fits := (IntType.fits_iff bounded).mpr (Nat.le_of_not_lt notAbove)
    rw [answered, checkedCount_eq_ok_iff.mpr ⟨rfl, fits⟩] at failed
    cases failed
  · intro above
    rw [answered]
    exact exists_overflow_of_not_fits fun fits =>
      Nat.not_le_of_lt above ((IntType.fits_iff bounded).mp fits)
  · intro below
    rw [answered]
    exact checkedCount_eq_ok_iff.mpr ⟨rfl, (IntType.fits_iff bounded).mpr below⟩

theorem count_overflow_iff_eight_bits :
    let answer := ((count 0 17).on
      ((Bench.fresh (.signed .w8)).run [.ask (.count (.int 0) (.int 17)), .lookup (-1) 9]).table).1
    ∃ error, answer = .error error ∧ error.kind = .numericOverflow := by
  intro answer
  obtain ⟨total, counted, overflow, _⟩ := @count_overflow_iff (.signed .w8) 127 rfl
    [.ask (.count (.int 0) (.int 17)), .lookup (-1) 9] 0 17
  rw [count_onFresh_unbounded, classSize_closed_seventeen] at counted
  cases counted
  exact overflow.mpr (by decide)

end BinaryLambda
