import BinaryLambda.Proofs.Standalone
import BinaryLambda.Proofs.Term.Bounds

/-!
What a larger bound changes.

With a larger bound an enumeration delivers more terms, between those of the smaller
bound, which keep their order. If the smaller bound is at least the size less one, there
are no more terms, and counting, unranking and ranking answer the same.
-/

namespace BinaryLambda

open Standalone

/-- A rank outside of its class is shown with the bound in place of its own. -/
def Error.withBound (bound : Nat) : Error → Error
  | .rankOutOfRange rank count _ size => .rankOutOfRange rank count bound size
  | error => error

theorem Error.withBound_of_invalidArgument {error : Error} (kind_eq : error.kind = .invalidArgument)
    (bound : Nat) : error.withBound bound = error := by
  cases error with
  | rankOutOfRange rank count own size => cases kind_eq
  | _ => rfl

theorem unrankOutcome_eq_mapError {bound larger : Nat} (le : bound ≤ larger) {size : Nat}
    (sizeLe : size ≤ bound + 1) (rank : Nat) :
    unrankOutcome larger size rank =
      (unrankOutcome bound size rank).mapError (Error.withBound larger) := by
  have same := classTerms_eq_of_size_le le sizeLe
  have length_eq : classSize larger size = classSize bound size := by
    rw [← length_classTerms, ← length_classTerms, same]
  unfold unrankOutcome
  rw [same, length_eq]
  split
  · rfl
  · split
    · rfl
    · rfl

theorem rankOutcome_eq {bound larger : Nat} (le : bound ≤ larger) {term : Term}
    (room : term.HasRoom) (sizeLe : term.size ≤ bound + 1) :
    rankOutcome bound term = rankOutcome larger term := by
  have valid := room.isValid_of_size_le sizeLe
  have same : classTerms larger term.size.toNat = classTerms bound term.size.toNat :=
    classTerms_eq_of_size_le le (by omega)
  rw [rankOutcome, rankOutcome, if_pos valid, if_pos (valid.mono (Int.ofNat_le.mpr le)), same]

/-- The enumeration of a class is that of the class of a larger bound without the terms that
are not valid for the smaller one. If the bound is at least the size less one, all answers are
the same, but for the bound that unranking shows with a rank outside of the class. -/
theorem larger_bound_adds {bound larger : Nat} (le : bound ≤ larger) (size : Nat)
    {intType : Literal} (isUnbounded : intType.intTypeOrDefault = .ok .unbounded) :
    ∃ sequence table terms, enumerate (.int bound) (.int size) intType = .ok (sequence, table) ∧
      sequence.Delivers table .forward terms ∧
    ∃ wider widerTable more,
      enumerate (.int larger) (.int size) intType = .ok (wider, widerTable) ∧
      wider.Delivers widerTable .forward more ∧
      terms = more.filter (fun term => term.IsValid bound) ∧
      (size ≤ bound + 1 →
        terms = more ∧
        count (.int bound) (.int size) intType = .ok terms.length ∧
        count (.int larger) (.int size) intType = .ok terms.length ∧
        (∀ given, unrank (.int larger) (.int size) given intType =
          (unrank (.int bound) (.int size) given intType).mapError (Error.withBound larger)) ∧
        ∀ term : Term, term.HasRoom → term.size = size →
          Standalone.rank (.int bound) (.ofTerm term) intType =
            Standalone.rank (.int larger) (.ofTerm term) intType) := by
  obtain ⟨table, opened, delivers⟩ := exists_enumerate_eq_ok isUnbounded bound size
  obtain ⟨widerTable, widerOpened, widerDelivers⟩ :=
    exists_enumerate_eq_ok isUnbounded larger size
  refine ⟨_, table, _, opened, delivers, _, widerTable, _, widerOpened, widerDelivers,
    (filter_classTerms le size).symm, ?_⟩
  intro sizeLe
  have same := classTerms_eq_of_size_le le sizeLe
  refine ⟨same.symm, ?_, ?_, ?_, ?_⟩
  · rw [count_eq isUnbounded, length_classTerms]
  · rw [count_eq isUnbounded, ← same, length_classTerms]
  · intro given
    rw [unrank_eq isUnbounded, unrank_eq isUnbounded]
    cases refused : given.natural "k" with
    | error error =>
        have kind_eq := Literal.kind_of_natural_eq_error refused
        exact congrArg Except.error (Error.withBound_of_invalidArgument kind_eq larger).symm
    | ok rank => exact unrankOutcome_eq_mapError le sizeLe rank
  · intro term room size_eq
    rw [rank_eq isUnbounded bound room, rank_eq isUnbounded larger room]
    exact rankOutcome_eq le room (by omega)

/-- The terms of size 4 with no free variable, with three, and with five, of which they use
no more than three. -/
theorem larger_bound_adds_size_four :
    (∃ sequence table terms,
      enumerate (.int (0 : Nat)) (.int (4 : Nat)) .nothing = .ok (sequence, table) ∧
      sequence.Delivers table .forward terms ∧
      ∃ wider widerTable more,
        enumerate (.int (3 : Nat)) (.int (4 : Nat)) .nothing = .ok (wider, widerTable) ∧
        wider.Delivers widerTable .forward more ∧
        terms = more.filter (fun term => term.IsValid (0 : Nat))) ∧
      (∀ rank : Int, unrank (.int (5 : Nat)) (.int (4 : Nat)) (.int rank) .nothing =
        (unrank (.int (3 : Nat)) (.int (4 : Nat)) (.int rank) .nothing).mapError
          (Error.withBound 5)) ∧
      Standalone.rank (.int (3 : Nat)) (.ofTerm (.app (.foreign 0) (.foreign 2))) .nothing =
        Standalone.rank (.int (5 : Nat)) (.ofTerm (.app (.foreign 0) (.foreign 2))) .nothing := by
  constructor
  · obtain ⟨sequence, table, terms, opened, delivers, wider, widerTable, more, widerOpened,
      widerDelivers, filtered, _⟩ := @larger_bound_adds 0 3 (by decide) 4 .nothing rfl
    exact ⟨sequence, table, terms, opened, delivers, wider, widerTable, more, widerOpened,
      widerDelivers, filtered⟩
  · obtain ⟨_, _, _, _, _, _, _, _, _, _, _, same⟩ :=
      @larger_bound_adds 3 5 (by decide) 4 .nothing rfl
    obtain ⟨_, _, _, unranked, ranked⟩ := same (by decide)
    exact ⟨fun rank => unranked (.int rank), ranked _ ⟨Int.le_refl 0, Int.le.intro 2 rfl⟩ (by decide)⟩

end BinaryLambda
