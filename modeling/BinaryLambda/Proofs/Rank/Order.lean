import BinaryLambda.Proofs.Bench
import BinaryLambda.Proofs.Rank.Ranking
import BinaryLambda.Proofs.Term.Order

/-!
Ranks follow the order of the terms.

Of two terms of a class the one with the smaller rank is the one that precedes the
other. The order compares the terms by their structure, whatever the sizes of the blocks
that ranks are made of.
-/

namespace BinaryLambda

open Counting CountTable Term

namespace HasRank

variable {bound : Int} {size rank other : Nat} {term otherTerm : Term}

theorem precedes_of_lt (ranked : HasRank bound size rank term)
    (otherRanked : HasRank bound size other otherTerm) (lt : rank < other) :
    term.Precedes otherTerm := by
  obtain ⟨inside, term_eq⟩ := List.getElem?_eq_some_iff.mp ranked.getElem?_eq
  obtain ⟨otherInside, other_eq⟩ := List.getElem?_eq_some_iff.mp otherRanked.getElem?_eq
  have placeLt : rank - 1 < other - 1 := Nat.sub_lt_sub_right ranked.one_le lt
  rw [← term_eq, ← other_eq]
  exact List.pairwise_iff_getElem.mp (pairwise_classTerms bound size) _ _ inside otherInside placeLt

theorem term_eq (ranked : HasRank bound size rank term)
    (otherRanked : HasRank bound size rank otherTerm) : term = otherTerm :=
  Option.some.inj (ranked.getElem?_eq.symm.trans otherRanked.getElem?_eq)

theorem lt_iff_precedes (ranked : HasRank bound size rank term)
    (otherRanked : HasRank bound size other otherTerm) :
    rank < other ↔ term.Precedes otherTerm := by
  constructor
  · exact ranked.precedes_of_lt otherRanked
  · intro precedes
    rcases Nat.lt_trichotomy rank other with before | rfl | behind
    · exact before
    · rw [ranked.term_eq otherRanked] at precedes
      exact absurd precedes precedes.asymm
    · exact absurd precedes (otherRanked.precedes_of_lt ranked behind).asymm

end HasRank

/-- On any unbounded tables the terms of two ranks, and the ranks of two terms, compare
as their ranks, and as the terms, do. -/
theorem rank_lt_iff_precedes (operations others : List Operation) (bound size : Nat) :
    let first := ((Bench.fresh .unbounded).run operations).table
    let second := ((Bench.fresh .unbounded).run others).table
    ∃ total, ((count bound size).on first).1 = .ok total ∧
      (∀ rank otherRank, (1 ≤ rank ∧ rank ≤ total) → (1 ≤ otherRank ∧ otherRank ≤ total) →
        ∃ term other, ((unrank bound size rank).on first).1 = .ok term ∧
          ((unrank bound size otherRank).on second).1 = .ok other ∧
          (rank < otherRank ↔ term.Precedes other)) ∧
      ∀ term other : Term, (term.WellFormed ∧ term.size = size ∧ term.IsValid bound) →
        (other.WellFormed ∧ other.size = size ∧ other.IsValid bound) →
          ∃ rank otherRank, ((Counting.rank bound term).on first).1 = .ok rank ∧
            ((Counting.rank bound other).on second).1 = .ok otherRank ∧
            (rank < otherRank ↔ term.Precedes other) := by
  intro first second
  have ready := ready_of_fits (.fresh .unbounded)
  have fits := IntType.fits_unbounded (classSize bound size)
  have firstSound := Bench.soundFrom_run_fresh .unbounded operations
  have secondSound := Bench.soundFrom_run_fresh .unbounded others
  refine ⟨classSize bound size, (ready.answers fits first firstSound).1, ?_, ?_⟩
  · intro rank otherRank inside otherInside
    obtain ⟨term, ranked⟩ := exists_hasRank_of_le inside.1 inside.2
    obtain ⟨other, otherRanked⟩ := exists_hasRank_of_le otherInside.1 otherInside.2
    exact ⟨term, other, (ready.unrank_answers fits ranked first firstSound).1,
      (ready.unrank_answers fits otherRanked second secondSound).1,
      ranked.lt_iff_precedes otherRanked⟩
  · intro term other given otherGiven
    obtain ⟨rank, ranked⟩ := exists_hasRank_of_inClass (inClass_natCast_iff.mpr given)
    obtain ⟨otherRank, otherRanked⟩ :=
      exists_hasRank_of_inClass (inClass_natCast_iff.mpr otherGiven)
    exact ⟨rank, otherRank, (ready.rank_answers fits ranked first firstSound).1,
      (ready.rank_answers fits otherRanked second secondSound).1,
      ranked.lt_iff_precedes otherRanked⟩

theorem rank_lt_iff_precedes_closed :
    let first := ((Bench.fresh .unbounded).run [.lookup (-1) 6]).table
    let second := ((Bench.fresh .unbounded).run []).table
    (∃ term other, ((unrank 0 8 1).on first).1 = .ok term ∧
        ((unrank 0 8 2).on second).1 = .ok other ∧ term.Precedes other) ∧
      ∃ rank otherRank,
        ((Counting.rank 0 (.lam (.lam (.lam (.var 1))))).on first).1 = .ok rank ∧
          ((Counting.rank 0 (.lam (.app (.var 1) (.var 1)))).on second).1 = .ok otherRank ∧
          rank < otherRank := by
  intro first second
  obtain ⟨total, counted, unranked, ranked⟩ := rank_lt_iff_precedes [.lookup (-1) 6] [] 0 8
  have fits := IntType.fits_unbounded (classSize (0 : Nat) 8)
  rw [Bench.count_run_fresh .unbounded [.lookup (-1) 6] fits, classSize_closed_eight] at counted
  cases counted
  obtain ⟨term, other, term_eq, other_eq, compared⟩ := unranked 1 2 (by decide) (by decide)
  obtain ⟨rank, otherRank, rank_eq, otherRank_eq, comparedRanks⟩ :=
    ranked (.lam (.lam (.lam (.var 1)))) (.lam (.app (.var 1) (.var 1))) (by decide) (by decide)
  exact ⟨⟨term, other, term_eq, other_eq, compared.mp (by decide)⟩, rank, otherRank, rank_eq,
    otherRank_eq, comparedRanks.mpr (by decide)⟩

end BinaryLambda
