import BinaryLambda.Proofs.ClassSize.Weight
import BinaryLambda.Proofs.Overflow

/-!
Sizes up to which nothing overflows.

There are not more terms than texts of their size, under whatever bound. So a type with room
for the numbers of a given width counts every class of terms that have no more bits than
that.
-/

namespace BinaryLambda

open Counting CountTable

theorem IntType.fits_classSize_of_le {type : IntType} {width : Nat}
    (bounded : type.max? = some (2 ^ width - 1)) (bound : Int) {size : Nat}
    (sizeLe : size ≤ width) : type.Fits (classSize bound size) := by
  rw [IntType.fits_iff bounded]
  apply Nat.le_sub_one_of_lt
  calc classSize bound size
      < 2 ^ size := classSize_lt_two_pow bound size
    _ ≤ 2 ^ width := Nat.pow_le_pow_right (by decide) sizeLe

/-- The counts under any bound, each with the number of ways in which a text of its size can
be continued to `size` bits, add up to at most the number of texts of that many bits. So a
table of fixed width counts all classes whose sizes are at most its width. -/
theorem count_safe_size (type : IntType) (operations others : List Operation)
    (bound size : Nat) :
    let table := ((Bench.fresh type).run operations).table
    let wide := ((Bench.fresh .unbounded).run others).table
    ∃ totals : Nat → Nat,
      (∀ smaller, ((count bound smaller).on wide).1 = .ok (totals smaller)) ∧
      ∑ smaller ∈ Finset.range (size + 1), totals smaller * 2 ^ (size - smaller) ≤ 2 ^ size ∧
      ∀ width, type.max? = some (2 ^ width - 1) → size ≤ width →
        ((count bound size).on table).1 = .ok (totals size) := by
  intro table wide
  refine ⟨classSize bound, fun smaller => ?_, (weight_classSize_lt bound size).le, ?_⟩
  · exact Bench.count_run_fresh .unbounded others (IntType.fits_unbounded _)
  · exact fun width bounded sizeLe =>
      Bench.count_run_fresh type operations (IntType.fits_classSize_of_le bounded bound sizeLe)

theorem count_safe_size_sixty_four_bits :
    let table := ((Bench.fresh (.signed .w64)).run
      [.ask (.count (.int 0) (.int 200)), .lookup (-1) 9]).table
    ∃ total, ((count 100 63).on table).1 = .ok total ∧
      ((count 100 63).on (.fresh .unbounded)).1 = .ok total := by
  intro table
  obtain ⟨totals, exact, _, safe⟩ := count_safe_size (.signed .w64)
    [.ask (.count (.int 0) (.int 200)), .lookup (-1) 9] [] 100 63
  exact ⟨totals 63, safe 63 rfl (Nat.le_refl 63), exact 63⟩

end BinaryLambda
