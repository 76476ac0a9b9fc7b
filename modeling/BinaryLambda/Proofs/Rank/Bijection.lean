import BinaryLambda.Proofs.Bench
import BinaryLambda.Proofs.Rank.Ranking

/-!
Ranking and unranking undo each other.

On an unbounded table every class is ready, whatever the table was used for before. So
the ranks from 1 to the count of a class correspond to its terms.
-/

namespace BinaryLambda

open Counting CountTable

/-- On any unbounded tables the ranks of a class and its terms correspond. -/
theorem unrank_rank_inverse (operations others : List Operation) (bound size : Nat) :
    let first := ((Bench.fresh .unbounded).run operations).table
    let second := ((Bench.fresh .unbounded).run others).table
    ∃ total, ((count bound size).on first).1 = .ok total ∧
      (∀ rank, 1 ≤ rank → rank ≤ total → ∃ term, ((unrank bound size rank).on first).1 = .ok term ∧
        (term.WellFormed ∧ term.size = size ∧ term.IsValid bound) ∧
        ((Counting.rank bound term).on second).1 = .ok rank) ∧
      ∀ term : Term, term.WellFormed → term.size = size → term.IsValid bound →
        ∃ rank, ((Counting.rank bound term).on first).1 = .ok rank ∧ (1 ≤ rank ∧ rank ≤ total) ∧
          ((unrank bound term.size.toNat rank).on second).1 = .ok term := by
  intro first second
  have ready := ready_of_fits (.fresh .unbounded)
  have fits := IntType.fits_unbounded (classSize bound size)
  have firstSound := Bench.soundFrom_run_fresh .unbounded operations
  have secondSound := Bench.soundFrom_run_fresh .unbounded others
  refine ⟨classSize bound size, (ready.answers fits first firstSound).1, ?_, ?_⟩
  · intro rank oneLe rankLe
    obtain ⟨term, ranked⟩ := exists_hasRank_of_le oneLe rankLe
    have inClass := ranked.inClass
    refine ⟨term, (ready.unrank_answers fits ranked first firstSound).1, ?_,
      (ready.rank_answers fits ranked second secondSound).1⟩
    exact ⟨inClass.wellFormed, inClass.size_eq,
      (term.freeBound_eq_zero_iff bound).mp inClass.freeBound_eq⟩
  · intro term wellFormed size_eq valid
    have inClass : term.InClass bound size :=
      ⟨wellFormed, size_eq, (term.freeBound_eq_zero_iff bound).mpr valid⟩
    obtain ⟨rank, ranked⟩ := exists_hasRank_of_inClass inClass
    rw [size_eq, Int.toNat_natCast]
    exact ⟨rank, (ready.rank_answers fits ranked first firstSound).1,
      ⟨ranked.one_le, ranked.le⟩, (ready.unrank_answers fits ranked second secondSound).1⟩

theorem unrank_rank_inverse_identity :
    let first := ((Bench.fresh .unbounded).run
      [.lookup (-2) 7, .ask (.count (.int 3) (.int 6))]).table
    let second := ((Bench.fresh .unbounded).run []).table
    (∃ term, ((unrank 0 4 1).on first).1 = .ok term ∧
        ((Counting.rank 0 term).on second).1 = .ok 1) ∧
      ∃ rank, ((Counting.rank 0 (.lam (.var 1))).on first).1 = .ok rank ∧
        ((unrank 0 4 rank).on second).1 = .ok (.lam (.var 1)) := by
  intro first second
  obtain ⟨total, _, unranked, ranked⟩ := unrank_rank_inverse
    [.lookup (-2) 7, .ask (.count (.int 3) (.int 6))] [] 0 4
  obtain ⟨rank, rank_eq, ⟨oneLe, le⟩, term_eq⟩ :=
    ranked (.lam (.var 1)) (by decide) (by decide) (by decide)
  obtain ⟨term, term_eq', _, rank_eq'⟩ := unranked 1 (le_refl 1) (oneLe.trans le)
  exact ⟨⟨term, term_eq', rank_eq'⟩, rank, rank_eq, term_eq⟩

end BinaryLambda
