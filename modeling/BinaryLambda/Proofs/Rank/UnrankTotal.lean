import BinaryLambda.Proofs.Overflow
import BinaryLambda.Proofs.Rank.Outcome

/-!
What unranking answers to any three integers.

Arguments that are out of the question are refused before the table is looked at. Then the
count of the class decides: it can overflow, or be less than the rank, and otherwise there
is a term. Nothing else can happen on the way to the term, since the ranks of its parts are
ranks of their classes again.
-/

namespace BinaryLambda

open Counting CountTable

namespace Counting

theorem on_answer_unrank_of_refused {bound size rank : Int}
    (refused : bound < 0 ∨ size < 0 ∨ rank < 1) (table : CountTable) :
    ∃ error, (Query.unrank (.int bound) (.int size) (.int rank)).answer.on table =
      (.error error, table) ∧ error.kind = .invalidArgument := by
  by_cases noClass : bound < 0 ∨ size < 0
  · exact on_withClass_of_neg noClass _ table
  · have rankLt : rank < 1 := by tauto
    push Not at noClass
    obtain ⟨bound, rfl⟩ := Int.eq_ofNat_of_zero_le noClass.1
    obtain ⟨size, rfl⟩ := Int.eq_ofNat_of_zero_le noClass.2
    rw [Query.answer, withClass_ofNat]
    rcases Int.lt_or_eq_of_le (show rank ≤ 0 from Int.le_of_lt_add_one rankLt) with negative | rfl
    · rw [Literal.natural_of_neg "k" negative]
      exact ⟨.negative "k" rank, rfl, rfl⟩
    · exact ⟨.rankZero, rfl, rfl⟩

section Accepted

variable {type : IntType} {table : CountTable} (from_ : SoundFrom (.fresh type) table)
  {bound size rank : Nat} (oneLe : 1 ≤ rank)

include from_ oneLe

theorem unrank_overflow (misfit : ¬ type.Fits (classSize bound size)) :
    ∃ error, ((unrank bound size rank).on table).1 = .error error ∧
      error.kind = .numericOverflow := by
  obtain ⟨error, counted, overflow⟩ := exists_overflow_of_not_fits misfit
  have failed := (count_answers bound size table from_).1.trans counted
  rw [unrank, if_neg (Nat.ne_zero_of_lt oneLe), on_bind_of_error failed]
  exact ⟨error, rfl, overflow⟩

theorem unrank_of_fits (fits : type.Fits (classSize bound size)) :
    if classSize bound size < rank then
      ((unrank bound size rank).on table).1 =
        .error (.rankOutOfRange rank (classSize bound size) bound size)
    else
      ∃ term, ((unrank bound size rank).on table).1 = .ok term ∧ term.InClass bound size := by
  have answers := (ready_of_fits (.fresh type)).unrank_answers_outcome fits rank
  rw [(answers table from_).1]
  split
  · next behind => exact unrankOutcome_of_lt behind
  · next inside =>
      obtain ⟨term, ranked⟩ := exists_hasRank_of_le oneLe (Nat.le_of_not_lt inside)
      exact ⟨term, unrankOutcome_of_hasRank ranked, ranked.inClass⟩

end Accepted

end Counting

/-- Whatever a table has been used for, unranking refuses arguments and leaves the table as it
is, or overflows as the count of the class does, or shows how many terms the class has, or
gives a term of the class. -/
theorem unrank_total (type : IntType) (operations : List Operation) (bound size rank : Int) :
    let table := ((Bench.fresh type).run operations).table
    let outcome := (Query.unrank (.int bound) (.int size) (.int rank)).answer.on table
    let total := classSize bound size.toNat
    if bound < 0 ∨ size < 0 ∨ rank < 1 then
      ∃ error, outcome = (.error error, table) ∧ error.kind = .invalidArgument
    else
      (count bound.toNat size.toNat).onFresh .unbounded = .ok total ∧
        if ¬ type.Fits total then
          ∃ error, outcome.1 = .error error ∧ error.kind = .numericOverflow
        else if total < rank then
          outcome.1 = .error (.rankOutOfRange rank total bound.toNat size.toNat)
        else
          ∃ term, outcome.1 = .ok (.term term) ∧
            term.WellFormed ∧ term.size = size ∧ term.freeBound 0 ≤ bound := by
  intro table outcome total
  split
  · next refused => exact on_answer_unrank_of_refused refused table
  · next accepted =>
      push Not at accepted
      obtain ⟨bound, rfl⟩ := Int.eq_ofNat_of_zero_le accepted.1
      obtain ⟨size, rfl⟩ := Int.eq_ofNat_of_zero_le accepted.2.1
      obtain ⟨rank, rfl⟩ := Int.eq_ofNat_of_zero_le (Int.le_trans (by decide) accepted.2.2)
      have oneLe : 1 ≤ rank := Int.ofNat_le.mp accepted.2.2
      have from_ : SoundFrom (.fresh type) table := Bench.soundFrom_run_fresh type operations
      have outcome_eq : outcome.1 = .term <$> ((unrank bound size rank).on table).1 := by
        change ((Query.answer _).on table).1 = _
        rw [answer_unrank_ofNat, on_bind_pure]
      refine ⟨count_onFresh_unbounded bound size, ?_⟩
      split
      · next misfit =>
          obtain ⟨error, failed, overflow⟩ :=
            @unrank_overflow type table from_ bound size rank oneLe misfit
          rw [outcome_eq, failed]
          exact ⟨error, rfl, overflow⟩
      · next fits =>
          have unranked := @unrank_of_fits type table from_ bound size rank oneLe (not_not.mp fits)
          split
          · next behind =>
              have behind : classSize bound size < rank := Int.ofNat_lt.mp behind
              rw [if_pos behind] at unranked
              rw [outcome_eq, unranked]
              rfl
          · next inside =>
              have inside : ¬ classSize bound size < rank :=
                fun behind => inside (Int.ofNat_lt.mpr behind)
              rw [if_neg inside] at unranked
              obtain ⟨term, unranked, inClass⟩ := unranked
              rw [outcome_eq, unranked]
              exact ⟨term, rfl, Term.inClass_natCast_iff.mp inClass⟩

/-- On a table of eight bits on which a count has overflowed, the first rank of the closed terms
of size 4 gives the identity, and there is no second. -/
theorem unrank_total_identity :
    let table := ((Bench.fresh (.signed .w8)).run
      [.ask (.count (.int 0) (.int 17)), .lookup (-1) 9]).table
    ((Query.unrank (.int 0) (.int 4) (.int 1)).answer.on table).1 =
        .ok (.term (.lam (.var 1))) ∧
      ((Query.unrank (.int 0) (.int 4) (.int 2)).answer.on table).1 =
        .error (.rankOutOfRange 2 1 0 4) := by
  intro table
  have total_eq : classSize 0 (4 : Int).toNat = 1 := classSize_closed_four
  have fits : (IntType.signed .w8).Fits 1 := IntType.fits_of_le_127 _ (by decide)
  have first := unrank_total (.signed .w8) [.ask (.count (.int 0) (.int 17)), .lookup (-1) 9] 0 4 1
  have second := unrank_total (.signed .w8) [.ask (.count (.int 0) (.int 17)), .lookup (-1) 9] 0 4 2
  rw [if_neg (by decide), total_eq, if_neg (not_not.mpr fits)] at first second
  rw [if_neg (by decide)] at first
  rw [if_pos (by decide)] at second
  obtain ⟨_, term, delivered, member⟩ := first
  have identityMember : (Term.lam (.var 1)).InClass (0 : Nat) (4 : Nat) :=
    Term.inClass_natCast_iff.mpr (by decide)
  rw [eq_of_classSize_eq_one classSize_closed_four (Term.inClass_natCast_iff.mpr member)
    identityMember] at delivered
  exact ⟨delivered, second.2⟩

end BinaryLambda
