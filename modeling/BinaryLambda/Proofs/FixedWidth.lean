import BinaryLambda.Proofs.Overflow
import BinaryLambda.Proofs.Rank.Ranking
import BinaryLambda.Standalone
import BinaryLambda.Term.Code

/-!
Tables of fixed width beside unbounded ones.

A table of fixed width checks each count that it stores; what is made of counts is not
checked, and never wrapped. Run on a table of fixed width and on an unbounded one, all that
counts classes gives one answer, unless a count overflows on the first
(`uniform_widthPair`). No operation catches an overflow, so what holds of counts holds of
them all, and of the operations that make a table of their own.

A term of a class that fits the type always has its rank there: ranking asks for no class
that is larger than that of the term.
-/

namespace BinaryLambda

open Counting CountTable

def ExactUnlessOverflow {α : Type} (answer wide : Except Error α) : Prop :=
  (∃ error, answer = .error error ∧ error.kind = .numericOverflow) ∨ answer = wide

namespace ExactUnlessOverflow

variable {α β : Type}

theorem refl (answer : Except Error α) : ExactUnlessOverflow answer answer := .inr rfl

theorem bind {first wide : Except Error α} {next wideNext : α → Except Error β}
    (firstExact : ExactUnlessOverflow first wide)
    (nextExact : ∀ value, ExactUnlessOverflow (next value) (wideNext value)) :
    ExactUnlessOverflow (first >>= next) (wide >>= wideNext) := by
  rcases firstExact with ⟨error, rfl, overflow⟩ | rfl
  · exact .inl ⟨error, rfl, overflow⟩
  · cases first with
    | error error => exact refl _
    | ok value => exact nextExact value

end ExactUnlessOverflow

namespace Counting

structure WidthPair (type : IntType) (table wide : CountTable) : Prop where
  left : SoundFrom (.fresh type) table
  right : SoundFrom (.fresh .unbounded) wide

theorem widthPair_fresh (type : IntType) :
    WidthPair type (.fresh type) (.fresh .unbounded) :=
  ⟨(sound_fresh type).soundFrom, (sound_fresh .unbounded).soundFrom⟩

theorem uniform_widthPair (type : IntType) :
    Uniform (WidthPair type) (fun error => error.kind = .numericOverflow) where
  count bound size := by
    intro table wide pair
    obtain ⟨answered, after⟩ := count_answers bound size table pair.left
    obtain ⟨wideAnswered, wideAfter⟩ := count_answers bound size wide pair.right
    cases counted : checkedCount type bound size with
    | error error =>
        exact .inl ⟨error, answered.trans counted, (isMisfit_of_checkedCount counted).kind_eq⟩
    | ok value =>
        obtain ⟨rfl, _⟩ := checkedCount_eq_ok_iff.mp counted
        have same : checkedCount .unbounded bound size = .ok (classSize bound size) :=
          checkedCount_eq_ok_iff.mpr ⟨rfl, IntType.fits_unbounded _⟩
        exact .inr ⟨(answered.trans counted).trans (wideAnswered.trans same).symm,
          after, wideAfter⟩
  uncaught error overflow := by
    rw [overflow]
    decide

section

variable {α : Type} {type : IntType} {computation : Counting α}
  (respects : Respects (WidthPair type) (fun error => error.kind = .numericOverflow) computation)

include respects

theorem Respects.exactUnlessOverflow {table wide : CountTable}
    (pair : WidthPair type table wide) :
    ExactUnlessOverflow (computation.on table).1 (computation.on wide).1 :=
  (respects table wide pair).imp_right And.left

theorem Respects.onFresh_exactUnlessOverflow :
    ExactUnlessOverflow (computation.onFresh type) (computation.onFresh .unbounded) :=
  respects.exactUnlessOverflow (widthPair_fresh type)

end

end Counting

namespace Standalone

variable {type : IntType} {intType wideType : Literal}
  (isType : intType.intTypeOrDefault = .ok type)
  (isUnbounded : wideType.intTypeOrDefault = .ok .unbounded)

include isType isUnbounded

theorem count_exactUnlessOverflow (bound size : Literal) :
    ExactUnlessOverflow (count bound size intType) (count bound size wideType) := by
  rw [count, count, isType, isUnbounded]
  refine (ExactUnlessOverflow.refl _).bind fun bound => (ExactUnlessOverflow.refl _).bind ?_
  exact fun size => ((uniform_widthPair type).count bound size).onFresh_exactUnlessOverflow

theorem unrank_exactUnlessOverflow (bound size rank : Literal) :
    ExactUnlessOverflow (unrank bound size rank intType) (unrank bound size rank wideType) := by
  rw [unrank, unrank, isType, isUnbounded]
  refine (ExactUnlessOverflow.refl _).bind fun bound => (ExactUnlessOverflow.refl _).bind ?_
  refine fun size => (ExactUnlessOverflow.refl _).bind fun rank => ?_
  exact ((uniform_widthPair type).respects_unrank bound size rank).onFresh_exactUnlessOverflow

theorem rank_exactUnlessOverflow (bound : Literal) (term : Draft) :
    ExactUnlessOverflow (rank bound term intType) (rank bound term wideType) := by
  rw [rank, rank, isType, isUnbounded]
  refine (ExactUnlessOverflow.refl _).bind fun term => ?_
  change ExactUnlessOverflow (bound.natural "m" >>= _) (bound.natural "m" >>= _)
  refine (ExactUnlessOverflow.refl _).bind fun bound => ?_
  exact ((uniform_widthPair type).respects_rank bound term).onFresh_exactUnlessOverflow

omit isType isUnbounded in
theorem enumerate_bind_eq {α : Type} (isType : intType.intTypeOrDefault = .ok type)
    (next : TermSequence → Counting α) (bound size : Literal) :
    (do let (opened, table) ← enumerate bound size intType; ((next opened).on table).1) = (do
      let bound ← bound.natural "m"
      let size ← size.natural "n"
      (Counting.sequence bound size >>= next).onFresh type) := by
  rw [enumerate, isType]
  cases bound.natural "m" with
  | error error => rfl
  | ok bound =>
      cases size.natural "n" with
      | error error => rfl
      | ok size =>
          simp only [bind, Except.bind]
          rcases ran : (Counting.sequence bound size).on (.fresh type) with ⟨error | opened, table⟩
          · exact (congrArg Prod.fst (on_bind_of_error (congrArg Prod.fst ran))).symm
          · have joined : (Counting.sequence bound size >>= next).on (.fresh type) =
                (next opened).on table := by
              rw [on_bind_of_ok (congrArg Prod.fst ran), ran]
            exact (congrArg Prod.fst joined).symm

theorem enumerate_bind_exactUnlessOverflow {α : Type} {next : TermSequence → Counting α}
    (respects : ∀ sequence,
      Respects (WidthPair type) (fun error => error.kind = .numericOverflow) (next sequence))
    (bound size : Literal) :
    ExactUnlessOverflow
      (do let (opened, table) ← enumerate bound size intType; ((next opened).on table).1)
      (do let (opened, table) ← enumerate bound size wideType; ((next opened).on table).1) := by
  rw [enumerate_bind_eq isType, enumerate_bind_eq isUnbounded]
  refine (ExactUnlessOverflow.refl _).bind fun bound => (ExactUnlessOverflow.refl _).bind ?_
  intro size
  have sequences := (uniform_widthPair type).respects_sequence bound size
  exact (sequences.bind respects).onFresh_exactUnlessOverflow

theorem enumerateTerms_exactUnlessOverflow (bound size : Literal) :
    ExactUnlessOverflow (enumerateTerms bound size intType)
      (enumerateTerms bound size wideType) := by
  have listed : ∀ intType, enumerateTerms bound size intType = (do
      let (opened, table) ← enumerate bound size intType
      ((do return (opened, ← opened.terms .forward) : Counting _).on table).1) := by
    intro intType
    rw [enumerateTerms]
    refine congrArg (enumerate bound size intType >>= ·) (funext fun (opened, table) => ?_)
    exact (congrArg Prod.fst (on_bind_pure _ _ table)).symm
  have respects : ∀ opened : TermSequence,
      Respects (WidthPair type) (fun error => error.kind = .numericOverflow)
        (do return (opened, ← opened.terms .forward)) :=
    fun opened => ((uniform_widthPair type).respects_terms opened .forward).bind
      fun terms => .pure (opened, terms)
  rw [listed, listed]
  exact enumerate_bind_exactUnlessOverflow isType isUnbounded respects bound size

end Standalone

/-- Whatever has been done before on a table of the type and on an unbounded one, all that
counts classes overflows on the first or has the same outcome on both; so do the operations
that make a table of the type and an unbounded one. A well-formed term of a class that fits
the type has its rank in any case. -/
theorem fixed_width_exact (type : IntType) (operations others : List Operation)
    {intType wideType : Literal} (isType : intType.intTypeOrDefault = .ok type)
    (isUnbounded : wideType.intTypeOrDefault = .ok .unbounded) :
    let table := ((Bench.fresh type).run operations).table
    let wide := ((Bench.fresh .unbounded).run others).table
    ((∀ query : Query, ¬ query.ShowsType →
        ExactUnlessOverflow (query.answer.on table).1 (query.answer.on wide).1) ∧
      (∀ (opened : TermSequence) (query : SequenceQuery),
        ExactUnlessOverflow ((query.answer opened).on table).1 ((query.answer opened).on wide).1) ∧
      ∀ (cursor : Cursor) (times : Nat),
        ExactUnlessOverflow ((cursor.advance times).on table).1
          ((cursor.advance times).on wide).1) ∧
    (∀ bound size : Literal,
      ExactUnlessOverflow (Standalone.count bound size intType)
        (Standalone.count bound size wideType) ∧
      (∀ rank : Literal, ExactUnlessOverflow (Standalone.unrank bound size rank intType)
        (Standalone.unrank bound size rank wideType)) ∧
      (∀ term : Draft, ExactUnlessOverflow (Standalone.rank bound term intType)
        (Standalone.rank bound term wideType)) ∧
      ExactUnlessOverflow (Standalone.enumerateTerms bound size intType)
        (Standalone.enumerateTerms bound size wideType) ∧
      ∀ query : SequenceQuery, ExactUnlessOverflow
        (do
          let (opened, table) ← Standalone.enumerate bound size intType
          ((query.answer opened).on table).1)
        (do
          let (opened, table) ← Standalone.enumerate bound size wideType
          ((query.answer opened).on table).1)) ∧
    ∀ (bound total : Nat) (term : Term), term.WellFormed → term.IsValid bound →
      ((count bound term.size.toNat).on wide).1 = .ok total → type.Fits total →
        ∃ rank, ((Counting.rank bound term).on table).1 = .ok rank ∧
          ((Counting.rank bound term).on wide).1 = .ok rank ∧
          Standalone.rank (.int bound) (.ofTerm term) intType = .ok rank := by
  intro table wide
  have left : SoundFrom (.fresh type) table := Bench.soundFrom_run_fresh type operations
  have right : SoundFrom (.fresh .unbounded) wide := Bench.soundFrom_run_fresh .unbounded others
  have pair : WidthPair type table wide := ⟨left, right⟩
  have uniform := uniform_widthPair type
  refine ⟨⟨?_, ?_, ?_⟩, fun bound size => ⟨?_, ?_, ?_, ?_, ?_⟩, ?_⟩
  · intro query noType
    exact (uniform.respects_answer query fun shows => absurd shows noType).exactUnlessOverflow pair
  · exact fun opened query =>
      (uniform.respects_sequenceAnswer opened query).exactUnlessOverflow pair
  · exact fun cursor times => (uniform.respects_advance cursor times).exactUnlessOverflow pair
  · exact Standalone.count_exactUnlessOverflow isType isUnbounded bound size
  · exact Standalone.unrank_exactUnlessOverflow isType isUnbounded bound size
  · exact Standalone.rank_exactUnlessOverflow isType isUnbounded bound
  · exact Standalone.enumerateTerms_exactUnlessOverflow isType isUnbounded bound size
  · exact fun query => Standalone.enumerate_bind_exactUnlessOverflow isType isUnbounded
      (fun opened => uniform.respects_sequenceAnswer opened query) bound size
  · intro bound total term wellFormed valid counted fits
    have size_eq := Int.toNat_of_nonneg wellFormed.hasRoom.size_nonneg
    have inClass : term.InClass bound term.size.toNat :=
      Term.inClass_natCast_iff.mpr ⟨wellFormed, size_eq.symm, valid⟩
    obtain ⟨rank, ranked⟩ := exists_hasRank_of_inClass inClass
    have answered := (count_answers bound term.size.toNat wide right).1
    rw [counted, eq_comm, checkedCount_eq_ok_iff] at answered
    rw [answered.1] at fits
    -- All counts on the way to the rank are of classes that are no larger, so they fit as well.
    have answers := (ready_of_fits (.fresh type)).rank_answers fits ranked
    have wideAnswers := (ready_of_fits (.fresh .unbounded)).rank_answers
      (IntType.fits_unbounded _) ranked
    refine ⟨rank, (answers table left).1, (wideAnswers wide right).1, ?_⟩
    rw [Standalone.rank, Draft.term_ofTerm, isType, Literal.natural_ofNat]
    exact (answers _ (sound_fresh type).soundFrom).1

/-- On a table of eight bits, after an overflow and a lookup, a rank of a class of 134 terms
is asked for, a table of that type is made by hand, and the identity has its rank. -/
theorem fixed_width_exact_eight_bits :
    let table := ((Bench.fresh (.signed .w8)).run
      [.ask (.count (.int 0) (.int 17)), .lookup (-1) 9]).table
    let wide := ((Bench.fresh .unbounded).run []).table
    ExactUnlessOverflow ((Query.unrank (.int 0) (.int 17) (.int 101)).answer.on table).1
        ((Query.unrank (.int 0) (.int 17) (.int 101)).answer.on wide).1 ∧
      ExactUnlessOverflow
        (Standalone.count (.int 0) (.int 17) (.scalar (.columnTypeObject "Int8")))
        (Standalone.count (.int 0) (.int 17) .nothing) ∧
      ∃ rank, ((Counting.rank 0 (.lam (.var 1))).on table).1 = .ok rank ∧
        ((Counting.rank 0 (.lam (.var 1))).on wide).1 = .ok rank := by
  intro table wide
  obtain ⟨⟨queries, _⟩, standalone, ranks⟩ := @fixed_width_exact (.signed .w8)
    [.ask (.count (.int 0) (.int 17)), .lookup (-1) 9] []
    (.scalar (.columnTypeObject "Int8")) .nothing (by decide) rfl
  have counted := @Bench.count_run_fresh .unbounded [] 0 4 (IntType.fits_unbounded _)
  rw [classSize_closed_four] at counted
  obtain ⟨rank, ranked, wideRanked, _⟩ := ranks 0 1 (.lam (.var 1)) (by decide) (by decide) counted
    (IntType.fits_of_le_127 _ (by decide))
  exact ⟨queries (.unrank (.int 0) (.int 17) (.int 101)) id, (standalone _ _).1, rank, ranked,
    wideRanked⟩

end BinaryLambda
