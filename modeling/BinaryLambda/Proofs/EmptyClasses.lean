import BinaryLambda.Proofs.Standalone
import BinaryLambda.Proofs.UniformSampling

/-!
Which classes are empty.

No term has less than two bits. From two bits on there are terms of every size, except for the
sizes 2, 3 and 5 if no variable is free and the size 3 if only one is (`classSize_eq_zero_iff`):
a small size without a variable that the bound admits has an abstraction over one, and what is
there at some size is there, with more bits around it, at the larger ones.
-/

namespace BinaryLambda

open Counting CountTable

def IsEmptyClass (bound size : Nat) : Prop :=
  size ≤ 1 ∨ bound = 0 ∧ (size = 2 ∨ size = 3 ∨ size = 5) ∨ bound = 1 ∧ size = 3

instance (bound size : Nat) : Decidable (IsEmptyClass bound size) :=
  inferInstanceAs (Decidable (_ ∨ _))

theorem classSize_pos_of_size_le_add_four {bound size : Nat} (fourLe : 4 ≤ size)
    (sizeLe : size ≤ bound + 4) : 0 < classSize bound size := by
  obtain ⟨body, rfl⟩ := Nat.exists_eq_add_of_le' (show 2 ≤ size by omega)
  calc 0 < classSize (bound + 1) body := classSize_pos_of_size_le (by omega) (by omega)
    _ ≤ classSize bound (body + 2) := classSize_bodies_le bound body

theorem classSize_pos_of_not_isEmptyClass {bound size : Nat}
    (inhabited : ¬ IsEmptyClass bound size) : 0 < classSize bound size := by
  have inRange : 2 ≤ size ∧ size ≤ bound + 1 ∨ 4 ≤ size ∧ size ≤ bound + 4 ∨ 6 ≤ size := by
    unfold IsEmptyClass at inhabited
    omega
  rcases inRange with ⟨twoLe, sizeLe⟩ | ⟨fourLe, sizeLe⟩ | sixLe
  · exact classSize_pos_of_size_le twoLe (by omega)
  · exact classSize_pos_of_size_le_add_four fourLe sizeLe
  · exact classSize_pos (Int.natCast_nonneg bound) sixLe

theorem classSize_eq_zero_iff {bound size : Nat} :
    classSize bound size = 0 ↔ IsEmptyClass bound size := by
  constructor
  · intro empty
    by_contra inhabited
    exact Nat.ne_of_gt (classSize_pos_of_not_isEmptyClass inhabited) empty
  · rintro (small | ⟨rfl, rfl | rfl | rfl⟩ | ⟨rfl, rfl⟩)
    · rcases Nat.le_one_iff_eq_zero_or_eq_one.mp small with rfl | rfl
      · exact classSize_zero bound
      · exact classSize_one bound
    · exact @classSize_eq_of_getElem? (0 : Nat) 3 2 0 (by decide) (by decide +kernel)
    · exact @classSize_eq_of_getElem? (0 : Nat) 3 3 0 (by decide) (by decide +kernel)
    · exact classSize_closed_five
    · exact @classSize_eq_of_getElem? (1 : Nat) 3 3 0 (by decide) (by decide +kernel)

theorem classTerms_eq_nil_iff {bound size : Nat} :
    classTerms bound size = [] ↔ IsEmptyClass bound size := by
  rw [← List.length_eq_zero_iff, length_classTerms, classSize_eq_zero_iff]

namespace Counting

variable {type : IntType} {table : CountTable} (from_ : SoundFrom (.fresh type) table)
  {bound size : Nat}

include from_

theorem sample_overflow (generator : Generator) (misfit : ¬ type.Fits (classSize bound size)) :
    ∃ error, ((sample generator bound size).on table).1 = .error error ∧
      error.kind = .numericOverflow := by
  obtain ⟨error, counted, overflow⟩ := exists_overflow_of_not_fits misfit
  have failed := (count_answers bound size table from_).1.trans counted
  rw [sample_eq, on_bind_of_error failed]
  exact ⟨error, rfl, overflow⟩

theorem sample_rankOutOfRange_iff {generator : Generator} (inRange : generator.InRange) :
    (∃ error, ((sample generator bound size).on table).1 = .error error ∧
      error.kind = .rankOutOfRange) ↔ IsEmptyClass bound size := by
  rw [← classSize_eq_zero_iff]
  constructor
  · rintro ⟨error, failed, kind_eq⟩
    by_contra inhabited
    have asked := inRange ⟨1, classSize bound size⟩ (Nat.one_le_iff_ne_zero.mpr inhabited)
    by_cases fits : type.Fits (classSize bound size)
    · have drawn := ((ready_of_fits (.fresh type)).sample_answers fits generator asked table from_).1
      rw [drawn] at failed
      cases failed
    · obtain ⟨other, overflows, other_kind⟩ := sample_overflow from_ generator fits
      rw [overflows] at failed
      cases failed
      rw [other_kind] at kind_eq
      cases kind_eq
  · intro empty
    have fits : type.Fits (classSize bound size) := by
      rw [empty]
      exact type.fits_zero
    have refused := (ready_of_fits (.fresh type)).sample_answers_empty fits generator empty
    exact ⟨_, (refused table from_).1, rfl⟩

end Counting

/-- The count of a class is zero, drawing from it finds no rank in range, and its enumeration
delivers nothing: each of them exactly for the classes that are listed as empty. What a table
has been used for makes no difference to a draw from it. -/
theorem empty_classes (type : IntType) (operations : List Operation) (bound size : Nat)
    {intType : Literal} (isUnbounded : intType.intTypeOrDefault = .ok .unbounded)
    {generator : Generator} (inRange : generator.InRange) :
    let table := ((Bench.fresh type).run operations).table
    (∃ total, Standalone.count (.int bound) (.int size) intType = .ok total ∧
      (total = 0 ↔ IsEmptyClass bound size)) ∧
    ((∃ error, ((sample generator bound size).on table).1 = .error error ∧
      error.kind = .rankOutOfRange) ↔ IsEmptyClass bound size) ∧
    ∃ sequence own terms,
      Standalone.enumerate (.int bound) (.int size) intType = .ok (sequence, own) ∧
      sequence.Delivers own .forward terms ∧ (terms = [] ↔ IsEmptyClass bound size) := by
  intro table
  refine ⟨⟨_, Standalone.count_eq isUnbounded bound size, classSize_eq_zero_iff⟩, ?_, ?_⟩
  · exact sample_rankOutOfRange_iff (Bench.soundFrom_run_fresh type operations) inRange
  · obtain ⟨own, opened, delivers⟩ := Standalone.exists_enumerate_eq_ok isUnbounded bound size
    exact ⟨_, own, _, opened, delivers, classTerms_eq_nil_iff⟩

theorem empty_classes_closed :
    let table := ((Bench.fresh (.signed .w8)).run
      [.ask (.count (.int 0) (.int 17)), .lookup (-1) 9]).table
    Standalone.count (.int (0 : Nat)) (.int (5 : Nat)) .nothing = .ok 0 ∧
      (∃ error, ((sample (Generator.cyclic 3) 0 5).on table).1 = .error error ∧
        error.kind = .rankOutOfRange) ∧
      ¬ ∃ error, ((sample (Generator.cyclic 3) 0 6).on table).1 = .error error ∧
        error.kind = .rankOutOfRange := by
  intro table
  obtain ⟨⟨total, counted, zero_iff⟩, refused, _⟩ := @empty_classes (.signed .w8)
    [.ask (.count (.int 0) (.int 17)), .lookup (-1) 9] 0 5 .nothing rfl _
    (Generator.cyclic_inRange 3)
  obtain ⟨_, drawn, _⟩ := @empty_classes (.signed .w8)
    [.ask (.count (.int 0) (.int 17)), .lookup (-1) 9] 0 6 .nothing rfl _
    (Generator.cyclic_inRange 3)
  obtain rfl : total = 0 := zero_iff.mpr (by decide)
  exact ⟨counted, refused.mpr (by decide), fun failed => absurd (drawn.mp failed) (by decide)⟩

end BinaryLambda
