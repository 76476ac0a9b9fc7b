import BinaryLambda.Proofs.Rank.Outcome
import BinaryLambda.Proofs.Sequence.Walk
import BinaryLambda.Standalone

/-!
Operations on unbounded tables of their own.

An unbounded table counts every class. So each operation that makes one has the outcome
that the terms of the class decide.
-/

namespace BinaryLambda
namespace Standalone

open Counting CountTable

variable {intType : Literal} (isUnbounded : intType.intTypeOrDefault = .ok .unbounded)

theorem ready_unbounded : Ready (SoundFrom (.fresh .unbounded)) fun _ _ => True where
  answers {bound size} _ :=
    (ready_of_fits (.fresh .unbounded)).answers (IntType.fits_unbounded (classSize bound size))
  bodies _ := trivial
  parts _ _ := trivial

theorem onFresh_of_answers {α : Type} {computation : Counting α} {answer : Except Error α}
    (answers : Answers (SoundFrom (.fresh .unbounded)) computation answer) :
    computation.onFresh .unbounded = answer :=
  (answers _ (sound_fresh .unbounded).soundFrom).1

include isUnbounded

theorem count_eq (bound size : Nat) :
    count (.int bound) (.int size) intType = .ok (classSize bound size) := by
  rw [count, Literal.natural_ofNat, Literal.natural_ofNat, isUnbounded]
  exact onFresh_of_answers (ready_unbounded.answers trivial)

theorem unrank_eq (bound size : Nat) (given : Literal) :
    unrank (.int bound) (.int size) given intType =
      (do unrankOutcome bound size (← given.natural "k")) := by
  rw [unrank, Literal.natural_ofNat, Literal.natural_ofNat, isUnbounded]
  cases given.natural "k" with
  | error error => rfl
  | ok rank => exact onFresh_of_answers (ready_unbounded.unrank_answers_outcome trivial rank)

theorem unrank_eq_ok_of_hasRank {bound size rank : Nat} {term : Term}
    (ranked : HasRank bound size rank term) :
    unrank (.int bound) (.int size) (.int rank) intType = .ok term := by
  rw [unrank, Literal.natural_ofNat, Literal.natural_ofNat, Literal.natural_ofNat, isUnbounded]
  exact onFresh_of_answers (ready_unbounded.unrank_answers trivial ranked)

theorem rank_eq (bound : Nat) {term : Term} (room : term.HasRoom) :
    rank (.int bound) (.ofTerm term) intType = rankOutcome bound term := by
  rw [rank, Literal.natural_ofNat, Draft.term_ofTerm, isUnbounded]
  exact onFresh_of_answers (ready_unbounded.rank_answers_outcome trivial room
    (Int.toNat_of_nonneg room.size_nonneg).symm)

theorem exists_enumerate_eq_ok (bound size : Nat) :
    ∃ table, enumerate (.int bound) (.int size) intType = .ok (.ofClass bound size, table) ∧
      (TermSequence.ofClass bound size).Delivers table .forward (classTerms bound size) := by
  have opens : Answers (SoundFrom (.fresh .unbounded)) (Counting.sequence bound size)
      (.ok (.ofClass bound size)) := (ready_unbounded.answers trivial).bind_ok (.pure _)
  obtain ⟨opened, after⟩ := opens _ (sound_fresh .unbounded).soundFrom
  rcases ran : (Counting.sequence bound size).on (.fresh .unbounded) with ⟨outcome, table⟩
  rw [ran] at opened after
  cases opened
  refine ⟨table, ?_, ?_⟩
  · rw [enumerate, Literal.natural_ofNat, Literal.natural_ofNat, isUnbounded]
    simp only [bind, Except.bind, ran]
    rfl
  · exact ready_unbounded.delivers_walkTerms (TermSequence.isExact_ofClass bound size) trivial
      after .forward

end Standalone
end BinaryLambda
