import BinaryLambda.Proofs.ClassSize.Tabulation
import Mathlib.Order.Interval.Finset.Nat

/-!
When a class is no larger than the next one of its bound.

Small classes can be larger than the next: there are six closed terms of size 10
and five of size 11. Under a bound of at least 4 that never happens, and under the
others not from size 11 on. Below size 11 a class that is larger than the next has
few terms, so that no class of more than 127 terms is larger than the next
(`classSize_le_max_succ`).
-/

namespace BinaryLambda

open Finset

/-- Where the later half of a sequence rises, so does its convolution: of two
places at least one is in that half, and the product in the middle is new. -/
theorem convolution_lt_succ {sequence : Nat → Nat} {total : Nat}
    (rises : ∀ place, total / 2 ≤ place → place ≤ total → sequence place ≤ sequence (place + 1))
    (first_pos : 0 < sequence (total / 2 + 1)) (second_pos : 0 < sequence (total - total / 2)) :
    convolution sequence total < convolution sequence (total + 1) := by
  let half := total / 2
  have lower : ∑ place ∈ range (half + 1), sequence place * sequence (total - place) ≤
      ∑ place ∈ range (half + 1), sequence place * sequence (total + 1 - place) := by
    apply sum_le_sum
    intro place member
    have placeLe : place ≤ half := mem_range_succ_iff.mp member
    rw [show total + 1 - place = total - place + 1 by omega]
    exact Nat.mul_le_mul_left _ (rises _ (by omega) (by omega))
  have upper : ∑ passed ∈ range (total - half),
        sequence (half + 1 + passed) * sequence (total - (half + 1 + passed)) ≤
      ∑ passed ∈ range (total - half),
        sequence (half + 1 + (passed + 1)) * sequence (total + 1 - (half + 1 + (passed + 1))) := by
    apply sum_le_sum
    intro passed member
    have passedLt : passed < total - half := mem_range.mp member
    rw [show total + 1 - (half + 1 + (passed + 1)) = total - (half + 1 + passed) by omega]
    exact Nat.mul_le_mul_right _ (rises _ (by omega) (by omega))
  have middle : 0 < sequence (half + 1) * sequence (total + 1 - (half + 1)) := by
    rw [Nat.add_sub_add_right]
    exact Nat.mul_pos first_pos second_pos
  calc convolution sequence total
      = ∑ place ∈ range (half + 1), sequence place * sequence (total - place) +
          ∑ passed ∈ range (total - half),
            sequence (half + 1 + passed) * sequence (total - (half + 1 + passed)) := by
        rw [convolution, ← sum_range_add, show half + 1 + (total - half) = total + 1 by omega]
    _ < ∑ place ∈ range (half + 1), sequence place * sequence (total + 1 - place) +
          ∑ passed ∈ range (total - half + 1),
            sequence (half + 1 + passed) * sequence (total + 1 - (half + 1 + passed)) := by
        rw [sum_range_succ' _ (total - half), Nat.add_zero]
        omega
    _ = convolution sequence (total + 1) := by
        rw [convolution, ← sum_range_add,
          show half + 1 + (total - half + 1) = total + 1 + 1 by omega]

theorem classSize_pos_of_size_le {bound : Int} {size : Nat} (twoLe : 2 ≤ size)
    (sizeLe : size ≤ bound + 1) : 0 < classSize bound size := by
  obtain ⟨body, rfl⟩ := Nat.exists_eq_add_of_le' twoLe
  have leaf : variableCount bound (body + 2) = 1 := if_pos sizeLe
  rw [classSize_add_two]
  omega

theorem classSize_pos {bound : Int} {size : Nat} (nonneg : 0 ≤ bound) (sixLe : 6 ≤ size) :
    0 < classSize bound size :=
  calc 0 < classSize (bound + 1) 2 := classSize_pos_of_size_le (by omega) (by omega)
    _ ≤ classSize bound 4 := classSize_bodies_le bound 2
    _ ≤ classSize bound size := classSize_le_of_add_two_le bound (by omega)

/-- From one size to the next a class can lose its variable alone. -/
theorem variableCount_le_succ (bound : Int) (size : Nat) :
    variableCount bound size ≤ variableCount bound (size + 1) + 1 := by
  unfold variableCount
  split <;> omega

theorem variableCount_eq_succ {bound : Int} {size : Nat} (ne : (size : Int) ≠ bound + 1) :
    variableCount bound size = variableCount bound (size + 1) := by
  unfold variableCount
  split <;> split <;> omega

theorem classSize_le_succ_of_smaller {bound : Int} {body : Nat}
    (bodies : classSize (bound + 1) body ≤ classSize (bound + 1) (body + 1))
    (applications : convolution (classSize bound) body <
      convolution (classSize bound) (body + 1)) :
    classSize bound (body + 2) ≤ classSize bound (body + 2 + 1) := by
  have leaves : variableCount bound (body + 2) ≤ variableCount bound (body + 1 + 2) + 1 :=
    variableCount_le_succ bound (body + 2)
  rw [classSize_add_two, classSize_add_two bound (body + 1)]
  omega

theorem classSize_le_succ_of_four_le {bound : Int} (fourLe : 4 ≤ bound) (size : Nat) :
    classSize bound size ≤ classSize bound (size + 1) := by
  induction size using Nat.strongRecOn generalizing bound with
  | ind size inductionHypothesis =>
      match size with
      | 0 => simp
      | 1 => simp
      | body + 2 =>
          have bodies := inductionHypothesis body (by omega) (show 4 ≤ bound + 1 by omega)
          have parts : ∀ part ≤ body, classSize bound part ≤ classSize bound (part + 1) :=
            fun part partLe => inductionHypothesis part (by omega) fourLe
          by_cases last : ((body + 2 : Nat) : Int) = bound + 1
          · have positive : ∀ part, 2 ≤ part → part ≤ body → 0 < classSize bound part :=
              fun part twoLe partLe => classSize_pos_of_size_le twoLe (by omega)
            -- The variable of the largest index is lost, and one more application makes up for it.
            exact classSize_le_succ_of_smaller bodies (convolution_lt_succ
              (fun part _ partLe => parts part partLe)
              (positive _ (by omega) (by omega)) (positive _ (by omega) (by omega)))
          · have leaves : variableCount bound (body + 2) = variableCount bound (body + 1 + 2) :=
              variableCount_eq_succ last
            have applications := convolution_le_convolution_succ (fun part _ => le_refl _) parts
            rw [classSize_add_two, classSize_add_two bound (body + 1)]
            omega

theorem classSizes_take_descending :
    ∀ bound < 4, ((classSizes (bound : Nat) 13).take 15).Pairwise fun larger smaller =>
      smaller ≤ larger := by
  decide +kernel

theorem classSizes_drop_small :
    ∀ bound < 4, ∀ size ∈ (classSizes (bound : Nat) 13).drop 15, size ≤ 127 := by
  decide +kernel

theorem classSize_le_succ_of_tabulated {bound : Nat} {size : Nat} (boundLt : bound < 4)
    (elevenLe : 11 ≤ size) (sizeLe : size ≤ 24) :
    classSize bound size ≤ classSize bound (size + 1) := by
  have length_eq : (classSizes bound 13).length = 26 := by simp [classSizes_eq]
  have descending := List.pairwise_iff_getElem.mp (classSizes_take_descending bound boundLt)
    (24 - size) (25 - size) (by simp; omega) (by simp; omega) (by omega)
  simp only [List.getElem_take, getElem_classSizes] at descending
  rw [show 2 * 13 - 1 - (25 - size) = size by omega,
    show 2 * 13 - 1 - (24 - size) = size + 1 by omega] at descending
  exact descending

theorem classSize_le_of_tabulated {bound : Nat} {size : Nat} (boundLt : bound < 4)
    (sizeLe : size ≤ 10) : classSize bound size ≤ 127 := by
  have member : classSize bound size ∈ (classSizes bound 13).drop 15 := by
    rw [List.mem_iff_getElem]
    refine ⟨10 - size, by simp [classSizes_eq]; omega, ?_⟩
    rw [List.getElem_drop, getElem_classSizes]
    congr 1
    omega
  exact classSizes_drop_small bound boundLt _ member

theorem classSize_le_succ (bound : Nat) {size : Nat} (elevenLe : 11 ≤ size) :
    classSize bound size ≤ classSize bound (size + 1) := by
  induction size using Nat.strongRecOn generalizing bound with
  | ind size inductionHypothesis =>
      by_cases fourLe : 4 ≤ bound
      · exact classSize_le_succ_of_four_le (by omega) size
      by_cases tabulated : size ≤ 24
      · exact classSize_le_succ_of_tabulated (by omega) elevenLe tabulated
      obtain ⟨body, rfl⟩ := Nat.exists_eq_add_of_le' (show 2 ≤ size by omega)
      apply classSize_le_succ_of_smaller
      · exact_mod_cast inductionHypothesis body (by omega) (bound + 1) (by omega)
      · apply convolution_lt_succ
        · intro part halfLe partLe
          exact inductionHypothesis part (by omega) bound (by omega)
        · exact classSize_pos (by omega) (by omega)
        · exact classSize_pos (by omega) (by omega)

/-- A class of more than 127 terms is no larger than the next one of its bound. -/
theorem classSize_le_max_succ (bound size : Nat) :
    classSize bound size ≤ max 127 (classSize bound (size + 1)) := by
  by_cases fourLe : 4 ≤ bound
  · exact le_max_of_le_right (classSize_le_succ_of_four_le (by omega) size)
  by_cases elevenLe : 11 ≤ size
  · exact le_max_of_le_right (classSize_le_succ bound elevenLe)
  · exact le_max_of_le_left (classSize_le_of_tabulated (by omega) (by omega))

end BinaryLambda
