import BinaryLambda.Proofs.Rank.Unranking
import BinaryLambda.Rank

/-!
Ranking finds the rank of a term.

Like unranking it counts the classes that the terms of a class are made of, and finds
what is before the term among them.
-/

namespace BinaryLambda
namespace Counting
namespace Ready

open Term

variable {kind : CountTable → Prop} {ready : Nat → Nat → Prop}

variable (counts : Ready kind ready)

include counts

theorem countAt_answers {bound size : Nat} {given : Int} (isReady : ready bound size)
    (given_eq : given = size) :
    Answers kind (countAt bound given) (.ok (classSize bound size)) := by
  rw [given_eq, countAt_natCast]
  exact counts.answers isReady

theorem smallerFunctions_answers {bound funcSize parts : Nat}
    (partsReady : ∀ part ≤ parts, ready bound part) (funcSizeLe : funcSize ≤ parts + 1) :
    Answers kind (smallerFunctions bound funcSize parts)
      (.ok (applicationsBelow bound parts funcSize)) := by
  induction funcSize with
  | zero => exact .pure 0
  | succ funcSize inductionHypothesis =>
      rw [smallerFunctions, List.range_succ, List.foldlM_append, applicationsBelow_succ]
      refine (inductionHypothesis (by omega)).bind_ok ?_
      rw [List.foldlM_cons]
      refine Answers.bind_ok ?_ (.pure _)
      refine (counts.answers (partsReady funcSize (by omega))).bind_ok ?_
      exact (counts.countAt_answers (partsReady (parts - funcSize) (by omega)) (by omega)).bind_ok
        (.pure _)

/-- An application is ranked by the ranks of its parts, with what is before their block. -/
theorem rankFrom_app_answers {bound parts funcSize argSize : Nat} {func arg : Term}
    {answer : Except Error Nat} (isReady : ready bound (parts + 2)) (func_eq : func.size = funcSize)
    (arg_eq : arg.size = argSize) (parts_eq : funcSize + argSize = parts)
    (rest : Answers kind (do
      let funcRank ← rankFrom bound func
      let argRank ← rankFrom bound arg
      return classSize (bound + 1 : Nat) parts + applicationsBelow bound parts funcSize +
        (funcRank - 1) * classSize bound argSize + argRank) answer) :
    Answers kind (rankFrom bound (app func arg)) answer := by
  have total_eq : func.size + arg.size = parts := by omega
  have argReady : ready bound argSize := counts.parts isReady (by omega)
  rw [rankFrom, total_eq, func_eq, Int.toNat_natCast]
  refine (counts.countAt_answers (counts.bodies isReady) rfl).bind_ok ?_
  refine (counts.smallerFunctions_answers (fun part partLe => counts.parts isReady partLe)
    (by omega)).bind_ok ?_
  exact (counts.countAt_answers argReady arg_eq).bind_ok rest

theorem rankFrom_answers {bound size rank : Nat} {term : Term} (isReady : ready bound size)
    (ranked : HasRank bound size rank term) : Answers kind (rankFrom bound term) (.ok rank) := by
  induction term generalizing bound size rank with
  | var index =>
      obtain ⟨inClass, rfl⟩ := hasRank_var_iff.mp ranked
      obtain ⟨oneLe, rfl, _⟩ := inClass_var_iff.mp inClass
      rw [rankFrom, if_neg (by omega)]
      exact counts.answers isReady
  | lam inner inductionHypothesis =>
      obtain ⟨body, rfl⟩ := Nat.exists_eq_add_of_le' ranked.two_le
      exact inductionHypothesis (counts.bodies isReady) (hasRank_lam_iff.mp ranked)
  | app func arg funcHypothesis argHypothesis =>
      obtain ⟨parts, rfl⟩ := Nat.exists_eq_add_of_le' ranked.two_le
      obtain ⟨funcSize, funcSizeLe, funcRank, argRank, funcRanked, argRanked, rfl⟩ :=
        hasRank_app_iff.mp ranked
      have funcReady := counts.parts isReady funcSizeLe
      have argReady := counts.parts isReady (Nat.sub_le parts funcSize)
      apply counts.rankFrom_app_answers isReady funcRanked.inClass.size_eq
        argRanked.inClass.size_eq (Nat.add_sub_cancel' funcSizeLe)
      refine (funcHypothesis funcReady funcRanked).bind_ok ?_
      exact (argHypothesis argReady argRanked).bind_ok (.pure _)
  | foreign leafSize => exact absurd ranked.inClass not_inClass_foreign

theorem rank_answers {bound size rank : Nat} {term : Term} (isReady : ready bound size)
    (ranked : HasRank bound size rank term) :
    Answers kind (Counting.rank bound term) (.ok rank) := by
  have valid : term.IsValid bound :=
    (term.freeBound_eq_zero_iff bound).mp ranked.inClass.freeBound_eq
  rw [Counting.rank, if_pos valid]
  exact counts.rankFrom_answers isReady ranked

end Ready
end Counting
end BinaryLambda
