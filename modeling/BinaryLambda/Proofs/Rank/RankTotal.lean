import BinaryLambda.Proofs.Bench
import BinaryLambda.Proofs.Overflow
import BinaryLambda.Proofs.Rank.Outcome

/-!
What ranking answers to any term.

A term that needs too many variables is refused before the table is looked at. Then the
first of its leaves, from left to right, that is in no class decides: the variable with
index zero is refused, and a leaf from outside is no term. The counts that are asked for
before that leaf is met are of classes that there are, because no part of the term has a
size below zero. Without such a leaf the term has a rank.
-/

namespace BinaryLambda

open Counting CountTable

namespace Term

/-- The variables and the leaves from outside, from left to right. -/
def leaves : Term → List Term
  | var index => [var index]
  | lam body => body.leaves
  | app func arg => func.leaves ++ arg.leaves
  | foreign size => [foreign size]

theorem wellFormed_iff_leaves {term : Term} :
    term.WellFormed ↔ ∀ leaf ∈ term.leaves, leaf.WellFormed := by
  induction term with
  | var index => simp [leaves]
  | lam body inductionHypothesis => exact inductionHypothesis
  | app func arg funcHypothesis argHypothesis =>
      rw [wellFormed_app, funcHypothesis, argHypothesis, leaves, List.forall_mem_append]
  | foreign size => simp [leaves]

theorem leafError?_of_find? {term leaf : Term}
    (first : term.leaves.find? (fun leaf => ¬ leaf.WellFormed) = some leaf) :
    leaf = var 0 ∧ term.leafError? = some .indexZero ∨
      ∃ size, leaf = foreign size ∧ term.leafError? = some (.notATerm (foreign size)) := by
  induction term with
  | var index =>
      obtain ⟨outside, rfl⟩ : ¬ (var index).WellFormed ∧ var index = leaf := by
        simpa [leaves] using first
      obtain rfl : index = 0 := Nat.lt_one_iff.mp (Nat.lt_of_not_le outside)
      exact .inl ⟨rfl, rfl⟩
  | lam body inductionHypothesis => exact inductionHypothesis first
  | app func arg funcHypothesis argHypothesis =>
      rw [leaves, List.find?_append] at first
      rw [leafError?]
      -- Both look at the argument only if the function has no such leaf.
      rcases Option.or_eq_some_iff.mp first with inFunc | ⟨notInFunc, inArg⟩
      · rcases funcHypothesis inFunc with ⟨rfl, error_eq⟩ | ⟨size, rfl, error_eq⟩
        · exact .inl ⟨rfl, by rw [error_eq, Option.some_or]⟩
        · exact .inr ⟨size, rfl, by rw [error_eq, Option.some_or]⟩
      · have funcFormed : func.WellFormed := by
          rw [wellFormed_iff_leaves]
          simpa using notInFunc
        rw [leafError?_eq_none_iff.mpr funcFormed, Option.none_or]
        exact argHypothesis inArg
  | foreign size =>
      obtain rfl : foreign size = leaf := by simpa [leaves] using first
      exact .inr ⟨size, rfl, rfl⟩

end Term

open Term

/-- On an unbounded table, whatever it has been used for, ranking refuses a term that needs too
many variables and leaves the table as it is. Of other terms the leftmost leaf that is in no
class decides, and a term without such a leaf has a rank in its class. -/
theorem rank_total (operations : List Operation) (bound : Nat) {term : Term}
    (room : term.HasRoom) :
    let table := ((Bench.fresh .unbounded).run operations).table
    let outcome := (Query.rank (.int bound) (.ofTerm term)).answer.on table
    if ¬ term.IsValid bound then
      ∃ error, outcome = (.error error, table) ∧ error.kind = .invalidArgument
    else
      match term.leaves.find? (fun leaf => ¬ leaf.WellFormed) with
      | some leaf => ∃ error, outcome.1 = .error error ∧
          (leaf = .var 0 ∧ error.kind = .invalidArgument ∨
            (∃ size, leaf = .foreign size) ∧ error.kind = .badType)
      | none => ∃ rank total, outcome.1 = .ok (.number rank) ∧
          (count bound term.size.toNat).onFresh .unbounded = .ok total ∧
          1 ≤ rank ∧ rank ≤ total := by
  intro table outcome
  have outcome_eq : outcome =
      (.number <$> ((rank bound term).on table).1, ((rank bound term).on table).2) := by
    change (Query.answer _).on table = _
    rw [answer_rank_ofNat, on_bind_pure]
  have from_ : SoundFrom (.fresh .unbounded) table :=
    Bench.soundFrom_run_fresh .unbounded operations
  have answers := (ready_of_fits (.fresh .unbounded)).rank_answers_outcome
    (IntType.fits_unbounded (classSize bound term.size.toNat)) room
    (Int.toNat_of_nonneg room.size_nonneg).symm
  have ranked := (answers table from_).1
  split
  · next tooMany =>
      refine ⟨.tooManyFree term bound, ?_, rfl⟩
      rw [outcome_eq, Counting.rank, if_neg tooMany]
      rfl
  · next valid =>
      rw [rankOutcome, if_pos (not_not.mp valid)] at ranked
      split
      · next leaf first =>
          rcases leafError?_of_find? first with ⟨rfl, error_eq⟩ | ⟨size, rfl, error_eq⟩
          · rw [error_eq] at ranked
            rw [outcome_eq, ranked]
            exact ⟨.indexZero, rfl, .inl ⟨rfl, rfl⟩⟩
          · rw [error_eq] at ranked
            rw [outcome_eq, ranked]
            exact ⟨.notATerm (.foreign size), rfl, .inr ⟨⟨size, rfl⟩, rfl⟩⟩
      · next noLeaf =>
          have wellFormed : term.WellFormed := by
            rw [wellFormed_iff_leaves]
            simpa using noLeaf
          have free := (term.freeBound_eq_zero_iff bound).mpr (not_not.mp valid)
          have hasRank := hasRank_idxOf wellFormed free
          rw [leafError?_eq_none_iff.mpr wellFormed] at ranked
          rw [outcome_eq, ranked]
          exact ⟨_, _, rfl, count_onFresh_unbounded bound term.size.toNat, hasRank.one_le,
            hasRank.le⟩

/-- After a lookup below zero: two leaves that are in no class, in both orders; a term that is
not closed, where a leaf from outside does not matter; and the identity. -/
theorem rank_total_leftmost :
    let table := ((Bench.fresh .unbounded).run [.lookup (-2) 7]).table
    let outcome := fun term : Term => (Query.rank (.int (0 : Nat)) (.ofTerm term)).answer.on table
    (∃ error, (outcome (app (lam (var 0)) (foreign 3))).1 = .error error ∧
        error.kind = .invalidArgument) ∧
      (∃ error, (outcome (app (lam (foreign 3)) (var 0))).1 = .error error ∧
        error.kind = .badType) ∧
      (∃ error, outcome (app (foreign 3) (var 1)) = (.error error, table) ∧
        error.kind = .invalidArgument) ∧
      ∃ rank, (outcome (lam (var 1))).1 = .ok (.number rank) ∧ 1 ≤ rank := by
  intro table outcome
  have three : (foreign 3).HasRoom := show (0 : Int) ≤ 3 by decide
  have zeroFirst := rank_total [.lookup (-2) 7] 0
    (show (app (lam (var 0)) (foreign 3)).HasRoom from ⟨trivial, three⟩)
  have foreignFirst := rank_total [.lookup (-2) 7] 0
    (show (app (lam (foreign 3)) (var 0)).HasRoom from ⟨three, trivial⟩)
  have openTerm := rank_total [.lookup (-2) 7] 0
    (show (app (foreign 3) (var 1)).HasRoom from ⟨three, trivial⟩)
  have identity := rank_total [.lookup (-2) 7] 0 (show (lam (var 1)).HasRoom from trivial)
  rw [if_neg (by decide)] at zeroFirst foreignFirst identity
  rw [if_pos (by decide)] at openTerm
  obtain ⟨zeroError, zeroFailed, zeroKind⟩ := zeroFirst
  obtain ⟨foreignError, foreignFailed, foreignKind⟩ := foreignFirst
  obtain ⟨rank, _, ranked, _, oneLe, _⟩ := identity
  refine ⟨⟨zeroError, zeroFailed, ?_⟩, ⟨foreignError, foreignFailed, ?_⟩, openTerm,
    rank, ranked, oneLe⟩
  · simpa using zeroKind
  · simpa using foreignKind

end BinaryLambda
