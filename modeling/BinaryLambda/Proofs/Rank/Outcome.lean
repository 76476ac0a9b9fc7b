import BinaryLambda.Proofs.Rank.Ranking
import BinaryLambda.Term.Code

/-!
What ranking and unranking answer in all cases.

Where classes are counted without a failure, a rank outside of its class is refused and
one inside has its term (`unrankOutcome`). A term that needs too many variables is refused;
then the leftmost of the leaves that are in no class decides; a term without such a leaf
has its place in the class (`rankOutcome`).
-/

namespace BinaryLambda
namespace Term

/-- The error of the leftmost leaf that is in no class, if there is one. -/
def leafError? : Term → Option Error
  | var index => if index = 0 then some .indexZero else none
  | lam body => body.leafError?
  | app func arg => func.leafError?.or arg.leafError?
  | foreign size => some (.notATerm (.foreign size))

theorem leafError?_eq_none_iff {term : Term} : term.leafError? = none ↔ term.WellFormed := by
  induction term with
  | var index =>
      rw [leafError?, wellFormed_var, ite_eq_right_iff, Nat.one_le_iff_ne_zero]
      simp
  | lam body inductionHypothesis => exact inductionHypothesis
  | app func arg funcHypothesis argHypothesis =>
      rw [leafError?, wellFormed_app, ← funcHypothesis, ← argHypothesis]
      exact Option.or_eq_none_iff
  | foreign size => simp [leafError?]

/-- The term is built from variables, abstractions and applications alone. -/
def IsPure : Term → Prop
  | var _ => True
  | lam body => body.IsPure
  | app func arg => func.IsPure ∧ arg.IsPure
  | foreign _ => False

instance decidableIsPure : (term : Term) → Decidable term.IsPure
  | var _ => inferInstanceAs (Decidable True)
  | lam body => decidableIsPure body
  | app func arg =>
      have := decidableIsPure func
      have := decidableIsPure arg
      inferInstanceAs (Decidable (_ ∧ _))
  | foreign _ => inferInstanceAs (Decidable False)

theorem IsPure.hasRoom {term : Term} (isPure : term.IsPure) : term.HasRoom := by
  induction term with
  | var index => trivial
  | lam body inductionHypothesis => exact inductionHypothesis isPure
  | app func arg funcHypothesis argHypothesis =>
      exact ⟨funcHypothesis isPure.1, argHypothesis isPure.2⟩
  | foreign size => exact isPure.elim

theorem IsPure.leafError_eq {term : Term} (isPure : term.IsPure) {error : Error}
    (outside : term.leafError? = some error) : error = .indexZero := by
  induction term with
  | var index =>
      rw [leafError?, Option.ite_none_right_eq_some] at outside
      exact (Option.some.inj outside.2).symm
  | lam body inductionHypothesis => exact inductionHypothesis isPure outside
  | app func arg funcHypothesis argHypothesis =>
      rcases Option.or_eq_some_iff.mp outside with inFunc | ⟨_, inArg⟩
      · exact funcHypothesis isPure.1 inFunc
      · exact argHypothesis isPure.2 inArg
  | foreign size => exact isPure.elim

end Term

def unrankOutcome (bound size rank : Nat) : Except Error Term :=
  if rank = 0 then
    .error .rankZero
  else
    match (classTerms bound size)[rank - 1]? with
    | some term => .ok term
    | none => .error (.rankOutOfRange rank (classSize bound size) bound size)

def rankOutcome (bound : Nat) (term : Term) : Except Error Nat :=
  if term.IsValid bound then
    match term.leafError? with
    | some error => .error error
    | none => .ok ((classTerms bound term.size.toNat).idxOf term + 1)
  else
    .error (.tooManyFree term bound)

theorem unrankOutcome_of_hasRank {bound size rank : Nat} {term : Term}
    (ranked : HasRank bound size rank term) : unrankOutcome bound size rank = .ok term := by
  rw [unrankOutcome, if_neg (Nat.ne_of_gt ranked.one_le), ranked.getElem?_eq]

theorem unrankOutcome_of_lt {bound size rank : Nat} (behind : classSize bound size < rank) :
    unrankOutcome bound size rank =
      .error (.rankOutOfRange rank (classSize bound size) bound size) := by
  have absent : (classTerms bound size)[rank - 1]? = none := by
    rw [List.getElem?_eq_none_iff, length_classTerms]
    exact Nat.le_sub_one_of_lt behind
  rw [unrankOutcome, if_neg (Nat.ne_zero_of_lt behind), absent]

theorem HasRank.rank_eq {bound : Int} {size rank other : Nat} {term : Term}
    (ranked : HasRank bound size rank term) (otherRanked : HasRank bound size other term) :
    rank = other := by
  have inside := (List.getElem?_eq_some_iff.mp ranked.getElem?_eq).1
  have same := (List.getElem?_inj inside (nodup_classTerms bound size)).mp
    (ranked.getElem?_eq.trans otherRanked.getElem?_eq.symm)
  have oneLe := ranked.one_le
  have otherOneLe := otherRanked.one_le
  omega

theorem hasRank_idxOf {bound : Nat} {term : Term} (wellFormed : term.WellFormed)
    (free : term.freeBound bound = 0) :
    HasRank bound term.size.toNat ((classTerms bound term.size.toNat).idxOf term + 1) term := by
  have inClass : term.InClass bound term.size.toNat :=
    ⟨wellFormed, (Int.toNat_of_nonneg wellFormed.hasRoom.size_nonneg).symm, free⟩
  exact ⟨Nat.le_add_left 1 _, List.getElem?_idxOf (mem_classTerms.mpr inClass)⟩

theorem rankOutcome_eq_ok_iff {bound rank : Nat} {term : Term} :
    rankOutcome bound term = .ok rank ↔ HasRank bound term.size.toNat rank term := by
  constructor
  · intro answered
    unfold rankOutcome at answered
    split at answered
    · next valid =>
        have free := (term.freeBound_eq_zero_iff bound).mpr valid
        split at answered
        · cases answered
        · next noError =>
            cases answered
            exact hasRank_idxOf (Term.leafError?_eq_none_iff.mp noError) free
    · cases answered
  · intro ranked
    have inClass := ranked.inClass
    have valid := (term.freeBound_eq_zero_iff bound).mp inClass.freeBound_eq
    have ranked' := hasRank_idxOf inClass.wellFormed inClass.freeBound_eq
    rw [rankOutcome, if_pos valid, Term.leafError?_eq_none_iff.mpr inClass.wellFormed]
    exact congrArg Except.ok (ranked'.rank_eq ranked)

theorem kind_of_rankOutcome_eq_error {bound : Nat} {term : Term} (isPure : term.IsPure)
    {error : Error} (refused : rankOutcome bound term = .error error) :
    error.kind = .invalidArgument := by
  unfold rankOutcome at refused
  split at refused
  · split at refused
    · next outside =>
        cases refused
        rw [isPure.leafError_eq outside]
        rfl
    · cases refused
  · cases refused
    rfl

namespace Counting
namespace Ready

open Term

variable {kind : CountTable → Prop} {ready : Nat → Nat → Prop}

variable (counts : Ready kind ready)

include counts

theorem unrank_answers_outcome {bound size : Nat} (isReady : ready bound size) (rank : Nat) :
    Answers kind (unrank bound size rank) (unrankOutcome bound size rank) := by
  rcases Nat.eq_zero_or_pos rank with rfl | oneLe
  · rw [unrank, if_pos rfl, unrankOutcome, if_pos rfl]
    exact .throw _
  rcases Nat.lt_or_ge (classSize bound size) rank with behind | inside
  · rw [unrankOutcome_of_lt behind, unrank, if_neg (Nat.ne_zero_of_lt oneLe)]
    refine (counts.answers isReady).bind_ok ?_
    rw [if_pos behind]
    exact .throw _
  · obtain ⟨term, ranked⟩ := exists_hasRank_of_le oneLe inside
    rw [unrankOutcome_of_hasRank ranked]
    exact counts.unrank_answers isReady ranked

theorem rankFrom_answers_leafError {bound size : Nat} {term : Term} {error : Error}
    (isReady : ready bound size) (room : term.HasRoom) (size_eq : term.size = size)
    (free : term.freeBound bound = 0) (outside : term.leafError? = some error) :
    Answers kind (rankFrom bound term) (.error error) := by
  induction term generalizing bound size with
  | var index =>
      by_cases zero : index = 0
      · rw [leafError?, if_pos zero] at outside
        cases outside
        rw [rankFrom, if_pos zero]
        exact .throw _
      · rw [leafError?, if_neg zero] at outside
        cases outside
  | lam body inductionHypothesis =>
      have bodyNonneg := @HasRoom.size_nonneg body room
      rw [size_lam] at size_eq
      obtain ⟨bodySize, rfl⟩ := Nat.exists_eq_add_of_le' (show 2 ≤ size by omega)
      exact inductionHypothesis (counts.bodies isReady) room (by omega) free outside
  | app func arg funcHypothesis argHypothesis =>
      rw [freeBound_app, Nat.max_eq_zero_iff] at free
      obtain ⟨funcSize, func_eq⟩ := Int.eq_ofNat_of_zero_le room.1.size_nonneg
      obtain ⟨argSize, arg_eq⟩ := Int.eq_ofNat_of_zero_le room.2.size_nonneg
      obtain rfl : size = funcSize + argSize + 2 := by
        rw [size_app] at size_eq
        omega
      have funcReady := counts.parts isReady (Nat.le_add_right funcSize argSize)
      have argReady := counts.parts isReady (Nat.le_add_left argSize funcSize)
      apply counts.rankFrom_app_answers isReady func_eq arg_eq rfl
      -- The counts before the parts do not fail, so the first to fail is the function, or else
      -- the argument.
      rw [leafError?] at outside
      cases funcError : func.leafError? with
      | some error =>
          rw [funcError] at outside
          cases outside
          exact (funcHypothesis funcReady room.1 func_eq free.1 funcError).bind_error
      | none =>
          rw [funcError] at outside
          have funcRanked := hasRank_idxOf (leafError?_eq_none_iff.mp funcError) free.1
          rw [func_eq, Int.toNat_natCast] at funcRanked
          refine (counts.rankFrom_answers funcReady funcRanked).bind_ok ?_
          exact (argHypothesis argReady room.2 arg_eq free.2 outside).bind_error
  | foreign size =>
      cases outside
      exact .throw _

theorem rank_answers_outcome {bound size : Nat} {term : Term} (isReady : ready bound size)
    (room : term.HasRoom) (size_eq : term.size = size) :
    Answers kind (Counting.rank bound term) (rankOutcome bound term) := by
  unfold Counting.rank rankOutcome
  by_cases valid : term.IsValid bound
  · have free := (term.freeBound_eq_zero_iff bound).mpr valid
    rw [if_pos valid, if_pos valid]
    cases leafError : term.leafError? with
    | some error => exact counts.rankFrom_answers_leafError isReady room size_eq free leafError
    | none =>
        have ranked := hasRank_idxOf (leafError?_eq_none_iff.mp leafError) free
        rw [size_eq, Int.toNat_natCast] at ranked ⊢
        exact counts.rankFrom_answers isReady ranked
  · rw [if_neg valid, if_neg valid]
    exact .throw _

end Ready
end Counting
end BinaryLambda
