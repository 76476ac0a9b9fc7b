import BinaryLambda.Proofs.ClassSize.Growth
import Mathlib.Tactic.Ring

/-!
How much room the codes of terms take.

A code of a few bits is the start of many longer texts: with each bit more there are twice
as many. `weight` adds these up for the codes of all lengths. The variables of any bound
take less than half of all texts of a length, and the abstractions and the applications at
most a quarter each, since both begin with two bits of their own. So the weight of a class
is less than the number of texts (`weight_classSize_lt`), and the more so is its size.
-/

namespace BinaryLambda

open Finset

/-- The number of texts of `length` bits that begin with a code, if `sequence` has the number
of codes of each length and no code is the beginning of another. -/
def weight (sequence : Nat → Nat) (length : Nat) : Nat :=
  ∑ place ∈ range (length + 1), sequence place * 2 ^ (length - place)

@[simp] theorem weight_zero (sequence : Nat → Nat) : weight sequence 0 = sequence 0 := by
  simp [weight]

/-- Each text can be continued in two ways, and the codes of the whole length are new. -/
theorem weight_succ (sequence : Nat → Nat) (length : Nat) :
    weight sequence (length + 1) = 2 * weight sequence length + sequence (length + 1) := by
  have continued : ∀ place ∈ range (length + 1),
      sequence place * 2 ^ (length + 1 - place) = 2 * (sequence place * 2 ^ (length - place)) := by
    intro place member
    rw [Nat.succ_sub (mem_range_succ_iff.mp member), Nat.pow_succ]
    ring
  rw [weight, sum_range_succ, sum_congr rfl continued, ← mul_sum, weight, Nat.sub_self,
    Nat.pow_zero, Nat.mul_one]

theorem le_weight (sequence : Nat → Nat) (length : Nat) :
    sequence length ≤ weight sequence length := by
  cases length with
  | zero => rw [weight_zero]
  | succ length =>
      rw [weight_succ]
      exact Nat.le_add_left _ _

theorem weight_add (first second : Nat → Nat) (length : Nat) :
    weight (fun place => first place + second place) length =
      weight first length + weight second length := by
  simp only [weight, Nat.add_mul, sum_add_distrib]

theorem weight_add_two {sequence : Nat → Nat} (zero : sequence 0 = 0) (one : sequence 1 = 0)
    (length : Nat) :
    weight sequence (length + 2) = weight (fun place => sequence (place + 2)) length := by
  induction length with
  | zero => simp [weight_succ, zero, one]
  | succ length inductionHypothesis =>
      rw [weight_succ, inductionHypothesis, weight_succ]

theorem weight_lt_of_le_one {sequence : Nat → Nat} (le : ∀ place, sequence place ≤ 1)
    (length : Nat) : weight sequence length < 2 ^ (length + 1) := by
  induction length with
  | zero =>
      rw [weight_zero]
      exact Nat.lt_succ_of_le (le 0)
  | succ length inductionHypothesis =>
      have last := le (length + 1)
      rw [weight_succ, Nat.pow_succ]
      omega

/-- Pairs of codes: the room that the second leaves is taken behind the first. -/
theorem weight_convolution (sequence : Nat → Nat) (length : Nat) :
    weight (convolution sequence) length =
      ∑ place ∈ range (length + 1), sequence place * weight sequence (length - place) := by
  induction length with
  | zero => simp [convolution]
  | succ length inductionHypothesis =>
      have step : ∀ place ∈ range (length + 1),
          sequence place * weight sequence (length + 1 - place) =
            2 * (sequence place * weight sequence (length - place)) +
              sequence place * sequence (length + 1 - place) := by
        intro place member
        rw [Nat.succ_sub (mem_range_succ_iff.mp member), weight_succ]
        ring
      rw [weight_succ, inductionHypothesis, sum_range_succ _ (length + 1), sum_congr rfl step,
        sum_add_distrib, ← mul_sum, convolution, sum_range_succ _ (length + 1), Nat.sub_self,
        weight_zero]
      ring

theorem weight_convolution_le {sequence : Nat → Nat} {length : Nat}
    (le : ∀ place ≤ length, weight sequence place ≤ 2 ^ place) :
    weight (convolution sequence) length ≤ 2 ^ length :=
  calc weight (convolution sequence) length
      = ∑ place ∈ range (length + 1), sequence place * weight sequence (length - place) :=
        weight_convolution sequence length
    _ ≤ weight sequence length := by
        apply sum_le_sum
        intro place member
        exact Nat.mul_le_mul_left _ (le _ (Nat.sub_le length place))
    _ ≤ 2 ^ length := le length (Nat.le_refl length)

theorem weight_classSize_lt (bound : Int) (size : Nat) :
    weight (classSize bound) size < 2 ^ size := by
  induction size using Nat.strongRecOn generalizing bound with
  | ind size inductionHypothesis =>
      match size with
      | 0 => simp
      | 1 => simp [weight_succ]
      | body + 2 =>
          have leaves : weight (fun place => variableCount bound (place + 2)) body <
              2 ^ (body + 1) :=
            weight_lt_of_le_one (fun place => variableCount_le_one bound (place + 2)) body
          have bodies : weight (classSize (bound + 1)) body < 2 ^ body :=
            inductionHypothesis body (by omega) (bound + 1)
          have applications : weight (convolution (classSize bound)) body ≤ 2 ^ body :=
            weight_convolution_le fun part partLe =>
              (inductionHypothesis part (by omega) bound).le
          rw [weight_add_two (classSize_zero bound) (classSize_one bound)]
          simp only [classSize_add_two, weight_add]
          rw [Nat.pow_succ] at leaves
          rw [Nat.pow_succ, Nat.pow_succ]
          omega

theorem classSize_lt_two_pow (bound : Int) (size : Nat) : classSize bound size < 2 ^ size :=
  (le_weight (classSize bound) size).trans_lt (weight_classSize_lt bound size)

end BinaryLambda
