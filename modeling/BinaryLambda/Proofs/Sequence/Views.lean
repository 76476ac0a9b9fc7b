import BinaryLambda.Proofs.Bench
import BinaryLambda.Proofs.Overflow
import BinaryLambda.Proofs.Rank.Outcome
import BinaryLambda.Proofs.Sequence.Walk
import Mathlib.Data.List.Forall2

/-!
All ways to look at a sequence show one list.

A walk delivers the terms of the class. Taking one by its position unranks it, and neither
membership nor the position of a term searches for the term: they go by its size, its free
variables and its rank. Where the class is ready they agree with the list all the same, also
on terms that are in no class (`indexOutcome_eq_ok_iff`, `Ready.contains_answers`).
-/

namespace BinaryLambda

open Term

namespace TermSequence

variable {sequence : TermSequence}

/-- What the position of a term is answered with, if the class can be counted. -/
def indexOutcome (sequence : TermSequence) (term : Term) : Except Error Nat :=
  if term.size = sequence.size then rankOutcome sequence.bound term
  else .error (.wrongSize term sequence.size)

theorem indexOutcome_eq_ok_iff {term : Term} {rank : Nat} :
    sequence.indexOutcome term = .ok rank ↔
      HasRank sequence.bound sequence.size rank term := by
  unfold indexOutcome
  by_cases size_eq : term.size = sequence.size
  · rw [if_pos size_eq, rankOutcome_eq_ok_iff, size_eq, Int.toNat_natCast]
  · rw [if_neg size_eq]
    constructor
    · rintro ⟨⟩
    · exact fun ranked => absurd ranked.inClass.size_eq size_eq

theorem kind_of_indexOutcome_eq_error {term : Term} (isPure : term.IsPure) {error : Error}
    (refused : sequence.indexOutcome term = .error error) : error.kind = .invalidArgument := by
  unfold indexOutcome at refused
  split at refused
  · exact kind_of_rankOutcome_eq_error isPure refused
  · cases refused
    rfl

theorem mem_classTerms_iff_indexOutcome {term : Term} :
    term ∈ classTerms sequence.bound sequence.size ↔
      ∃ rank, sequence.indexOutcome term = .ok rank := by
  rw [mem_classTerms]
  constructor
  · intro inClass
    obtain ⟨rank, ranked⟩ := exists_hasRank_of_inClass inClass
    exact ⟨rank, indexOutcome_eq_ok_iff.mpr ranked⟩
  · rintro ⟨rank, answered⟩
    exact (indexOutcome_eq_ok_iff.mp answered).inClass

theorem indexOutcome_refused_iff {term : Term} (isPure : term.IsPure) :
    (∃ error, sequence.indexOutcome term = .error error ∧ error.kind = .invalidArgument) ↔
      term ∉ classTerms sequence.bound sequence.size := by
  rw [mem_classTerms_iff_indexOutcome]
  constructor
  · rintro ⟨error, refused, _⟩ ⟨rank, answered⟩
    rw [refused] at answered
    cases answered
  · intro absent
    cases outcome : sequence.indexOutcome term with
    | ok rank => exact absurd ⟨rank, outcome⟩ absent
    | error error => exact ⟨error, rfl, kind_of_indexOutcome_eq_error isPure outcome⟩

theorem forall₂_ranks_walkTerms (isExact : sequence.IsExact) (direction : Direction) :
    List.Forall₂ (fun rank term => HasRank sequence.bound sequence.size rank term)
      (sequence.ranks direction) (walkTerms sequence.bound sequence.size direction) := by
  have length_eq : (sequence.ranks direction).length =
      (walkTerms sequence.bound sequence.size direction).length := by
    rw [length_ranks, length_walkTerms, isExact]
  refine List.forall₂_iff_get.mpr ⟨length_eq, fun place inRanks inTerms => ?_⟩
  let cursor : Cursor := ⟨sequence, direction, place⟩
  have next : cursor.nextRank? = some ((sequence.ranks direction).get ⟨place, inRanks⟩) :=
    cursor.nextRank?_eq_getElem?.trans (List.getElem?_eq_getElem inRanks)
  obtain ⟨term, ranked, found⟩ := Cursor.exists_hasRank_of_nextRank? isExact next
  obtain ⟨_, rfl⟩ := List.getElem?_eq_some_iff.mp found
  exact ranked

end TermSequence

namespace Counting

theorem Answers.mapM {α β : Type} {kind : CountTable → Prop} {computation : α → Counting β}
    {values : List α} {results : List β}
    (each : List.Forall₂ (fun value result => Answers kind (computation value) (.ok result))
      values results) : Answers kind (values.mapM computation) (.ok results) := by
  rw [← List.mapM'_eq_mapM]
  induction each with
  | nil => exact .pure []
  | cons first _ inductionHypothesis =>
      exact first.bind_ok (inductionHypothesis.bind_ok (.pure _))

namespace Ready

variable {kind : CountTable → Prop} {ready : Nat → Nat → Prop}

variable (counts : Ready kind ready) {sequence : TermSequence}
  (isReady : ready sequence.bound sequence.size)

include counts isReady

theorem get_answers {rank : Nat} {term : Term}
    (ranked : HasRank sequence.bound sequence.size rank term) (isExact : sequence.IsExact) :
    Answers kind (sequence.get rank) (.ok term) := by
  have inside : (1 : Int) ≤ rank ∧ (rank : Int) ≤ sequence.length := by
    have oneLe := ranked.one_le
    have le := ranked.le
    rw [← isExact] at le
    omega
  rw [TermSequence.get, if_pos inside]
  exact counts.unrankFrom_answers isReady ranked

theorem walk_answers (isExact : sequence.IsExact) (direction : Direction) :
    Answers kind ((sequence.ranks direction).mapM sequence.term)
      (.ok (walkTerms sequence.bound sequence.size direction)) :=
  .mapM ((TermSequence.forall₂_ranks_walkTerms isExact direction).imp
    fun _ _ ranked => counts.unrankFrom_answers isReady ranked)

theorem index_answers {term : Term} (isPure : term.IsPure) :
    Answers kind (sequence.index term) (sequence.indexOutcome term) := by
  unfold TermSequence.index TermSequence.indexOutcome
  by_cases size_eq : term.size = sequence.size
  · rw [if_pos size_eq, if_pos size_eq]
    exact counts.rank_answers_outcome isReady isPure.hasRoom size_eq
  · rw [if_neg size_eq, if_neg size_eq]
    exact .throw _

theorem contains_answers {term : Term} (isPure : term.IsPure) :
    Answers kind (sequence.contains term)
      (.ok (decide (term ∈ classTerms sequence.bound sequence.size))) := by
  have member_iff := @TermSequence.mem_classTerms_iff_indexOutcome sequence term
  unfold TermSequence.indexOutcome at member_iff
  unfold TermSequence.contains
  by_cases size_eq : term.size = sequence.size
  · rw [if_pos size_eq] at member_iff ⊢
    have ranks := counts.rank_answers_outcome isReady isPure.hasRoom size_eq
    cases outcome : rankOutcome sequence.bound term with
    | ok rank =>
        rw [outcome] at ranks
        rw [decide_eq_true (member_iff.mpr ⟨rank, outcome⟩)]
        exact .tryCatch_ok (ranks.bind_ok (.pure true))
    | error error =>
        rw [outcome] at ranks
        rw [decide_eq_false (by simp [member_iff, outcome])]
        refine .tryCatch_error ranks.bind_error ?_
        rw [if_pos (kind_of_rankOutcome_eq_error isPure outcome)]
        exact .pure false
  · rw [if_neg size_eq] at member_iff ⊢
    rw [decide_eq_false (by simp [member_iff])]
    exact .pure false

end Ready
end Counting

open Counting CountTable

/-- A sequence that is open on a table is as long as its class, which fits the type. -/
theorem Bench.isExact_of_mem_sequences (type : IntType) (operations : List Operation)
    {sequence : TermSequence}
    (isOpen : sequence ∈ ((Bench.fresh type).run operations).handles.sequences) :
    sequence.IsExact ∧ type.Fits (classSize sequence.bound sequence.size) := by
  have counted := Bench.hasSequences_run_fresh type operations sequence isOpen
  obtain ⟨length_eq, fits⟩ := (Bench.soundFrom_run_fresh type operations).sound counted
  rw [Bench.intType_run_fresh, length_eq] at fits
  exact ⟨length_eq, fits⟩

/-- Walks in both directions, positions, membership and the positions of terms all show the
same list of different terms, as many as the class has. -/
theorem sequence_views_agree (type : IntType) (operations : List Operation)
    {sequence : TermSequence} :
    let bench := (Bench.fresh type).run operations
    sequence ∈ bench.handles.sequences →
      ∃ terms : List Term, sequence.Delivers bench.table .forward terms ∧
        (terms.length = sequence.length ∧ terms.Nodup ∧
          (count sequence.bound sequence.size).onFresh .unbounded = .ok sequence.length) ∧
        (sequence.Delivers bench.table .backward terms.reverse ∧
          ((sequence.terms .backward).on bench.table).1 = .ok terms.reverse ∧
          (sequence.length ≤ TermSequence.maxListLength →
            ((sequence.terms .forward).on bench.table).1 = .ok terms)) ∧
        ((∀ (place : Nat) (term : Term), terms[place]? = some term →
            ((sequence.get (place + 1 : Nat)).on bench.table).1 = .ok term) ∧
          ∀ rank : Int, ¬ (1 ≤ rank ∧ rank ≤ sequence.length) →
            ((sequence.get rank).on bench.table).1 =
              .error (.rankOutOfRange rank sequence.length sequence.bound sequence.size)) ∧
        ∀ term : Term, term.IsPure →
          ((sequence.contains term).on bench.table).1 = .ok (decide (term ∈ terms)) ∧
          (∀ rank : Nat, ((sequence.index term).on bench.table).1 = .ok rank ↔
            1 ≤ rank ∧ terms[rank - 1]? = some term) ∧
          ((∃ error, ((sequence.index term).on bench.table).1 = .error error ∧
            error.kind = .invalidArgument) ↔ term ∉ terms) := by
  intro bench isOpen
  obtain ⟨isExact, fits⟩ := Bench.isExact_of_mem_sequences type operations isOpen
  have counts := ready_of_fits (.fresh type)
  have sound := Bench.soundFrom_run_fresh type operations
  have length_eq : (classTerms sequence.bound sequence.size).length = sequence.length :=
    (length_classTerms _ _).trans isExact.symm
  refine ⟨classTerms sequence.bound sequence.size, ?_, ⟨length_eq, nodup_classTerms _ _, ?_⟩,
    ⟨?_, ?_, ?_⟩, ⟨?_, ?_⟩, ?_⟩
  · exact counts.delivers_walkTerms isExact fits sound .forward
  · rw [count_onFresh_unbounded, isExact]
  · exact counts.delivers_walkTerms isExact fits sound .backward
  · exact (counts.walk_answers fits isExact .backward _ sound).1
  · intro isList
    rw [TermSequence.terms, TermSequence.listLength, if_pos isList]
    exact (counts.walk_answers fits isExact .forward _ sound).1
  · intro place term found
    have ranked : HasRank sequence.bound sequence.size (place + 1) term :=
      ⟨Nat.le_add_left 1 place, found⟩
    exact (counts.get_answers fits ranked isExact _ sound).1
  · intro rank outside
    rw [TermSequence.get, if_neg outside, on_throw]
  · intro term isPure
    have indexed := (counts.index_answers fits isPure _ sound).1
    refine ⟨(counts.contains_answers fits isPure _ sound).1, fun rank => ?_, ?_⟩
    · rw [indexed, TermSequence.indexOutcome_eq_ok_iff]
      constructor
      · exact fun ranked => ⟨ranked.one_le, ranked.getElem?_eq⟩
      · exact fun ⟨oneLe, found⟩ => ⟨oneLe, found⟩
    · rw [indexed]
      exact TermSequence.indexOutcome_refused_iff isPure

/-- The two closed terms of size 8, after an overflow on the table. The third position is
outside, and a term of that size with the index zero is looked for. -/
theorem sequence_views_agree_size_eight :
    let bench := (Bench.fresh (.signed .w8)).run ([.ask (.count (.int 0) (.int 17))] ++
      [.openSequence (.int (0 : Nat)) (.int (8 : Nat))])
    let sequence : TermSequence := ⟨0, 8, 2⟩
    let term := lam (app (var 0) (lam (var 0)))
    sequence ∈ bench.handles.sequences ∧ term.IsPure ∧
      ∃ terms : List Term, sequence.Delivers bench.table .forward terms ∧
        sequence.Delivers bench.table .backward terms.reverse ∧ terms.length = 2 ∧
        ((sequence.get 3).on bench.table).1 = .error (.rankOutOfRange 3 2 0 8) ∧
        ((sequence.terms .forward).on bench.table).1 = .ok terms ∧
        ((sequence.contains term).on bench.table).1 = .ok (decide (term ∈ terms)) := by
  have isOpen := Bench.mem_sequences_run_fresh _ [.ask (.count (.int 0) (.int 17))]
    (IntType.fits_closed_eight (.signed .w8))
  rw [classSize_closed_eight] at isOpen
  obtain ⟨terms, delivers, ⟨terms_length, _⟩, ⟨backward, _, listed⟩, ⟨_, outside⟩, views⟩ :=
    sequence_views_agree (.signed .w8) _ isOpen
  have isPure : (lam (app (var 0) (lam (var 0)))).IsPure := by decide
  exact ⟨isOpen, isPure, terms, delivers, backward, terms_length, outside 3 (by decide),
    listed (by decide), (views _ isPure).1⟩

end BinaryLambda
