import BinaryLambda.Proofs.Rank.Outcome
import BinaryLambda.Proofs.Term.Bounds
import Mathlib.Order.Bounds.Basic

/-!
What the free variables of a term are counted by.

A variable of index `index` under `lambdas` abstractions of the term reaches that many
binders outwards, and needs those that the abstractions, the depth and the free variables
do not supply. The number of free variables that a term needs is the least that supplies
all its variables (`isLeast_freeBound`).
-/

namespace BinaryLambda
namespace Term

/-- A variable of the index is in the term, with so many abstractions of the term around it. -/
inductive Occurs : (term : Term) → (index lambdas : Nat) → Prop where
  | var (index : Nat) : Occurs (var index) index 0
  | lam {body : Term} {index lambdas : Nat} (inBody : Occurs body index lambdas) :
      Occurs (lam body) index (lambdas + 1)
  | func {func arg : Term} {index lambdas : Nat} (inFunc : Occurs func index lambdas) :
      Occurs (app func arg) index lambdas
  | arg {func arg : Term} {index lambdas : Nat} (inArg : Occurs arg index lambdas) :
      Occurs (app func arg) index lambdas

/-- Every variable of the term finds its binder among the abstractions around it, `depth`
further binders and `bound` free variables. -/
def Supplied (term : Term) (depth : Int) (bound : Nat) : Prop :=
  ∀ index lambdas, term.Occurs index lambdas → (index : Int) ≤ bound + lambdas + depth

theorem supplied_var_iff {index bound : Nat} {depth : Int} :
    (var index).Supplied depth bound ↔ (index : Int) ≤ bound + depth := by
  constructor
  · intro supplied
    simpa using supplied index 0 (.var index)
  · rintro le _ _ ⟨⟩
    simpa using le

theorem supplied_lam_iff {body : Term} {bound : Nat} {depth : Int} :
    (lam body).Supplied depth bound ↔ body.Supplied (depth + 1) bound := by
  constructor
  · intro supplied index lambdas inBody
    have le := supplied index (lambdas + 1) (.lam inBody)
    omega
  · rintro supplied index _ (_ | ⟨inBody⟩)
    have le := supplied index _ inBody
    omega

theorem supplied_app_iff {func arg : Term} {bound : Nat} {depth : Int} :
    (app func arg).Supplied depth bound ↔
      func.Supplied depth bound ∧ arg.Supplied depth bound := by
  constructor
  · exact fun supplied => ⟨fun index lambdas inFunc => supplied index lambdas (.func inFunc),
      fun index lambdas inArg => supplied index lambdas (.arg inArg)⟩
  · rintro ⟨funcSupplied, argSupplied⟩ index lambdas occurs
    cases occurs with
    | func inFunc => exact funcSupplied index lambdas inFunc
    | arg inArg => exact argSupplied index lambdas inArg

theorem supplied_foreign (size : Int) (depth : Int) (bound : Nat) :
    (foreign size).Supplied depth bound := by
  rintro _ _ ⟨⟩

theorem freeBound_le_iff {term : Term} {depth : Int} {bound : Nat} :
    term.freeBound depth ≤ bound ↔ term.Supplied depth bound := by
  -- Under an abstraction the depth is one more, so it is general.
  induction term generalizing depth with
  | var index =>
      rw [freeBound_var, supplied_var_iff]
      omega
  | lam body inductionHypothesis => rw [freeBound_lam, supplied_lam_iff, inductionHypothesis]
  | app func arg funcHypothesis argHypothesis =>
      rw [freeBound_app, supplied_app_iff, Nat.max_le, funcHypothesis, argHypothesis]
  | foreign size => simp [supplied_foreign]

theorem isLeast_freeBound (term : Term) (depth : Int) :
    IsLeast {bound | term.Supplied depth bound} (term.freeBound depth) :=
  ⟨freeBound_le_iff.mp (Nat.le_refl _), fun _ supplied => freeBound_le_iff.mpr supplied⟩

theorem isValid_lam_iff {body : Term} {bound : Nat} :
    (lam body).IsValid bound ↔ body.IsValid (bound + 1) := by
  have shifted : body.freeBound (0 + 1) = body.freeBound 0 - 1 := freeBound_add body 0 1
  rw [IsValid, IsValid, freeBound_lam, shifted]
  omega

theorem IsPure.size_pos {term : Term} (isPure : term.IsPure) : 0 < term.size := by
  cases term with
  | var index =>
      rw [size_var]
      omega
  | lam body =>
      have bodyNonneg := (@IsPure.hasRoom body isPure).size_nonneg
      rw [size_lam]
      omega
  | app func arg =>
      have funcNonneg := (@IsPure.hasRoom func isPure.1).size_nonneg
      have argNonneg := (@IsPure.hasRoom arg isPure.2).size_nonneg
      rw [size_app]
      omega
  | foreign size => exact isPure.elim

/-- The free variables that a term needs are the fewest that supply all its variables. So
binders around it and abstractions on top of it take from them, and it needs fewer than it has
bits. -/
theorem freeBound_meaning {term : Term} (isPure : term.IsPure) :
    (∀ depth : Int, IsLeast {bound | term.Supplied depth bound} (term.freeBound depth)) ∧
      (∀ (depth : Int) (more : Nat),
        (term.freeBound (depth + more) : Int) = max 0 ((term.freeBound depth : Int) - more)) ∧
      (∀ bound : Nat, (lam term).IsValid bound ↔ term.IsValid (bound + 1)) ∧
      (term.freeBound 0 : Int) ≤ term.size - 1 := by
  refine ⟨isLeast_freeBound term, fun depth more => ?_, fun bound => isValid_lam_iff, ?_⟩
  · rw [freeBound_add]
    omega
  · have sizePos := isPure.size_pos
    have le := isPure.hasRoom.freeBound_le 0
    omega

/-- The second variable reaches two binders beyond the abstraction around it. Without one of
the binders around the term, it needs three. -/
theorem freeBound_meaning_app :
    let term := app (var 0) (lam (var 3))
    term.IsPure ∧ term.freeBound 0 = 2 ∧ term.freeBound (-1) = 3 ∧
      IsLeast {bound | term.Supplied (-1) bound} 3 ∧ (lam term).IsValid 1 ∧
      (term.freeBound 0 : Int) ≤ term.size - 1 := by
  intro term
  have isPure : term.IsPure := by decide
  obtain ⟨least, _, valid, le⟩ := freeBound_meaning isPure
  exact ⟨isPure, rfl, rfl, least (-1), (valid 1).mpr (by decide), le⟩

end Term
end BinaryLambda
