import BinaryLambda.Recurrence
import Mathlib.Algebra.BigOperators.Fin
import Mathlib.Algebra.BigOperators.Intervals
import Mathlib.Algebra.Order.BigOperators.Group.Finset

/-!
How the sizes of classes compare.

A class grows with its bound. Under one bound it grows with its size, except from
one size to the next: every term becomes one that is two bits longer by an
abstraction around it, and one that is three bits longer if the index of a
variable rises with it. So a class is no smaller than any class that its count is
made of (`classSize_le_of_add_two_le`).
-/

namespace BinaryLambda

open Finset

/-- The sum of the products of two entries whose places add up to `total`. -/
def convolution (sequence : Nat → Nat) (total : Nat) : Nat :=
  ∑ place ∈ range (total + 1), sequence place * sequence (total - place)

theorem sum_map_range (sequence : Nat → Nat) (length : Nat) :
    ((List.range length).map sequence).sum = ∑ place ∈ range length, sequence place := by
  induction length with
  | zero => simp
  | succ length inductionHypothesis =>
      simp [List.range_succ, sum_range_succ, inductionHypothesis]

theorem convolution_le_convolution {first second : Nat → Nat} {total : Nat}
    (le : ∀ place ≤ total, first place ≤ second place) :
    convolution first total ≤ convolution second total := by
  apply sum_le_sum
  intro place member
  have placeLe : place ≤ total := mem_range_succ_iff.mp member
  exact Nat.mul_le_mul (le place placeLe) (le (total - place) (Nat.sub_le total place))

theorem convolution_le_convolution_succ {first second : Nat → Nat} {total : Nat}
    (le : ∀ place ≤ total, first place ≤ second place)
    (leSucc : ∀ place ≤ total, first place ≤ second (place + 1)) :
    convolution first total ≤ convolution second (total + 1) := by
  calc convolution first total
      ≤ ∑ place ∈ range (total + 1), second (place + 1) * second (total + 1 - (place + 1)) := by
        apply sum_le_sum
        intro place member
        have placeLe : place ≤ total := mem_range_succ_iff.mp member
        rw [Nat.add_sub_add_right]
        exact Nat.mul_le_mul (leSucc place placeLe) (le _ (Nat.sub_le total place))
    _ ≤ convolution second (total + 1) := by
        rw [convolution, sum_range_succ' _ (total + 1)]
        exact Nat.le_add_right _ _

theorem classSize_add_two (bound : Int) (body : Nat) :
    classSize bound (body + 2) =
      variableCount bound (body + 2) + classSize (bound + 1) body +
        convolution (classSize bound) body := by
  have foldl_eq_sum : ∀ (values : List (Fin (body + 1))) (start : Nat),
      values.foldl (fun total (func : Fin (body + 1)) =>
          total + classSize bound func * classSize bound (body - func)) start =
        start + (values.map fun func : Fin (body + 1) =>
          classSize bound func * classSize bound (body - func)).sum := by
    intro values
    induction values with
    | nil => simp
    | cons func values inductionHypothesis =>
        intro start
        simp [inductionHypothesis, Nat.add_assoc]
  rw [classSize, foldl_eq_sum, Nat.zero_add, convolution, ← Fin.sum_univ_eq_sum_range
    (fun func => classSize bound func * classSize bound (body - func)), Fin.sum_univ_def]

theorem variableCount_mono {bound larger : Int} (le : bound ≤ larger) (size : Nat) :
    variableCount bound size ≤ variableCount larger size := by
  unfold variableCount
  split <;> split <;> omega

theorem variableCount_le_one (bound : Int) (size : Nat) : variableCount bound size ≤ 1 := by
  unfold variableCount
  split
  · exact Nat.le_refl 1
  · exact Nat.zero_le 1

theorem variableCount_succ (bound : Int) (size : Nat) :
    variableCount (bound + 1) (size + 1) = variableCount bound size := by
  unfold variableCount
  split <;> split <;> omega

theorem classSize_mono {bound larger : Int} (le : bound ≤ larger) (size : Nat) :
    classSize bound size ≤ classSize larger size := by
  induction size using Nat.strongRecOn generalizing bound larger with
  | ind size inductionHypothesis =>
      match size with
      | 0 => simp
      | 1 => simp
      | body + 2 =>
          have leaves := variableCount_mono le (body + 2)
          have bodies := inductionHypothesis body (by omega) (Int.add_le_add_right le 1)
          have applications : convolution (classSize bound) body ≤
              convolution (classSize larger) body :=
            convolution_le_convolution fun part partLe => inductionHypothesis part (by omega) le
          rw [classSize_add_two, classSize_add_two]
          omega

theorem classSize_bodies_le (bound : Int) (body : Nat) :
    classSize (bound + 1) body ≤ classSize bound (body + 2) := by
  rw [classSize_add_two]
  omega

/-- An index of every term can rise by one where one more variable is free. -/
theorem classSize_le_lift (bound : Int) (size : Nat) :
    classSize bound size ≤ classSize (bound + 1) (size + 1) := by
  induction size using Nat.strongRecOn generalizing bound with
  | ind size inductionHypothesis =>
      match size with
      | 0 => simp
      | 1 => simp
      | body + 2 =>
          have leaves : variableCount (bound + 1) (body + 1 + 2) = variableCount bound (body + 2) :=
            variableCount_succ bound (body + 2)
          have bodies := inductionHypothesis body (by omega) (bound + 1)
          have applications : convolution (classSize bound) body ≤
              convolution (classSize (bound + 1)) (body + 1) :=
            convolution_le_convolution_succ
              (fun part _ => classSize_mono (by omega) part)
              (fun part partLe => inductionHypothesis part (by omega) bound)
          rw [classSize_add_two, classSize_add_two]
          omega

theorem classSize_le_add_two (bound : Int) (size : Nat) :
    classSize bound size ≤ classSize bound (size + 2) :=
  (classSize_mono (by omega) size).trans (classSize_bodies_le bound size)

theorem classSize_le_add_three (bound : Int) (size : Nat) :
    classSize bound size ≤ classSize bound (size + 3) :=
  (classSize_le_lift bound size).trans (classSize_bodies_le bound (size + 1))

theorem classSize_le_of_add_two_le (bound : Int) {size larger : Nat} (le : size + 2 ≤ larger) :
    classSize bound size ≤ classSize bound larger := by
  induction larger using Nat.strongRecOn with
  | ind larger inductionHypothesis =>
      rcases (show larger = size + 2 ∨ larger = size + 3 ∨ size + 4 ≤ larger by omega) with
        rfl | rfl | far
      · exact classSize_le_add_two bound size
      · exact classSize_le_add_three bound size
      · have before := inductionHypothesis (larger - 2) (by omega) (by omega)
        have step := classSize_le_add_two bound (larger - 2)
        rw [Nat.sub_add_cancel (by omega)] at step
        exact before.trans step

end BinaryLambda
