import BinaryLambda.Term.Basic
import Mathlib.Tactic.Common

/-!
Which terms are in a class, constructor by constructor.

Depth comes off the free variables that a term needs, but for what it does not need
(`freeBound_natCast`), so at a bound that is not negative the class is that of the
valid terms.
-/

namespace BinaryLambda
namespace Term

theorem freeBound_add (term : Term) (depth : Int) (more : Nat) :
    term.freeBound (depth + more) = term.freeBound depth - more := by
  induction term generalizing depth with
  | var index =>
      simp only [freeBound_var]
      omega
  | lam body inductionHypothesis =>
      have body_eq := inductionHypothesis (depth + 1)
      rw [freeBound_lam, freeBound_lam, ← body_eq]
      congr 1
      omega
  | app func arg funcHypothesis argHypothesis =>
      rw [freeBound_app, freeBound_app, funcHypothesis, argHypothesis]
      omega
  | foreign size => simp

theorem freeBound_eq_zero_iff (term : Term) (bound : Nat) :
    term.freeBound bound = 0 ↔ term.IsValid bound := by
  have shifted := freeBound_add term 0 bound
  rw [Int.zero_add] at shifted
  rw [shifted, IsValid]
  omega

theorem inClass_natCast_iff {term : Term} {bound : Nat} {size : Int} :
    term.InClass bound size ↔ term.WellFormed ∧ term.size = size ∧ term.IsValid bound := by
  rw [← freeBound_eq_zero_iff]
  constructor
  · exact fun inClass => ⟨inClass.wellFormed, inClass.size_eq, inClass.freeBound_eq⟩
  · exact fun ⟨wellFormed, size_eq, free⟩ => ⟨wellFormed, size_eq, free⟩

theorem WellFormed.two_le_size {term : Term} (wellFormed : term.WellFormed) : 2 ≤ term.size := by
  induction term with
  | var index =>
      rw [wellFormed_var] at wellFormed
      rw [size_var]
      omega
  | lam body inductionHypothesis =>
      have := inductionHypothesis wellFormed
      rw [size_lam]
      omega
  | app func arg funcHypothesis argHypothesis =>
      have := funcHypothesis wellFormed.1
      have := argHypothesis wellFormed.2
      rw [size_app]
      omega
  | foreign size => exact wellFormed.elim

variable {bound : Int} {size : Nat}

theorem InClass.two_le {term : Term} (inClass : term.InClass bound size) : 2 ≤ size := by
  have := inClass.wellFormed.two_le_size
  have := inClass.size_eq
  omega

theorem inClass_var_iff {index : Nat} :
    (var index).InClass bound size ↔ 1 ≤ index ∧ index + 1 = size ∧ index ≤ bound := by
  constructor
  · rintro ⟨wellFormed, size_eq, freeBound_eq⟩
    simp only [wellFormed_var, size_var, freeBound_var] at wellFormed size_eq freeBound_eq
    omega
  · rintro ⟨oneLe, rfl, le⟩
    exact ⟨oneLe, by simp, by simp; omega⟩

theorem inClass_lam_iff {body : Term} :
    (lam body).InClass bound (size + 2 : Nat) ↔ body.InClass (bound + 1) size := by
  constructor
  · rintro ⟨wellFormed, size_eq, freeBound_eq⟩
    rw [size_lam] at size_eq
    exact ⟨wellFormed, by omega, freeBound_eq⟩
  · rintro ⟨wellFormed, size_eq, freeBound_eq⟩
    exact ⟨wellFormed, by rw [size_lam]; omega, freeBound_eq⟩

theorem inClass_app_iff {func arg : Term} :
    (app func arg).InClass bound (size + 2 : Nat) ↔
      ∃ funcSize ≤ size,
        func.InClass bound funcSize ∧ arg.InClass bound (size - funcSize : Nat) := by
  constructor
  · rintro ⟨⟨funcFormed, argFormed⟩, size_eq, freeBound_eq⟩
    have := funcFormed.two_le_size
    have := argFormed.two_le_size
    rw [size_app] at size_eq
    rw [freeBound_app, Nat.max_eq_zero_iff] at freeBound_eq
    exact ⟨func.size.toNat, by omega, ⟨funcFormed, by omega, freeBound_eq.1⟩,
      ⟨argFormed, by omega, freeBound_eq.2⟩⟩
  · rintro ⟨funcSize, funcSizeLe, func, arg⟩
    refine ⟨⟨func.wellFormed, arg.wellFormed⟩, ?_, ?_⟩
    · rw [size_app, func.size_eq, arg.size_eq]
      omega
    · rw [freeBound_app, func.freeBound_eq, arg.freeBound_eq, Nat.max_self]

theorem not_inClass_foreign {leafSize size : Int} : ¬ (foreign leafSize).InClass bound size :=
  fun inClass => inClass.wellFormed

end Term
end BinaryLambda
