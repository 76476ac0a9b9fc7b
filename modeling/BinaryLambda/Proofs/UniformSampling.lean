import BinaryLambda.Proofs.Rank.Order
import BinaryLambda.Proofs.Rank.UnrankTotal
import Mathlib.Data.Set.Function

/-!
Terms are drawn uniformly.

The generator is asked for a number from 1 to the count of the class, and the term of this
rank is drawn. Since the ranks and the terms of a class correspond (`bijOn_rankedTerm`), each
term comes from one answer: it is as likely as any other if the answers are.

What the generator is asked for is said with the generator left open (`Sampling.termBy`).
Getting an answer may then be any computation on the table; that it is not run, or is run once
before all that depends on it, shows in what the table and the outcome are.
-/

namespace BinaryLambda

open Counting CountTable

/-- Drawing a term where a number between two ends is got by `ask`. -/
def Sampling.termBy {μ : Type → Type} [Monad μ] [MonadLiftT Counting μ] [MonadExceptOf Error μ]
    (ask : (low high : Nat) → μ Nat) (bound size : Nat) : μ Term := do
  let total ← Counting.count bound size
  if total = 0 then
    throw (.rankOutOfRange 1 0 bound size)
  else
    let rank ← ask 1 total
    Counting.unrankFrom bound size rank

theorem sample_eq_termBy (generator : Generator) (bound size : Nat) :
    sample generator bound size =
      (Sampling.termBy (Sampling.ask generator) bound size).run [] := rfl

/-- The term of a rank in the list of its class; other numbers have a term of no class. -/
def rankedTerm (bound : Int) (size rank : Nat) : Term :=
  (classTerms bound size).getD (rank - 1) (.var 0)

section RankedTerm

variable {bound : Int} {size rank : Nat}

theorem hasRank_rankedTerm (inRange : rank ∈ Set.Icc 1 (classSize bound size)) :
    HasRank bound size rank (rankedTerm bound size rank) := by
  obtain ⟨term, ranked⟩ := exists_hasRank_of_le inRange.1 inRange.2
  rwa [rankedTerm, List.getD_eq_getElem?_getD, ranked.getElem?_eq]

theorem bijOn_rankedTerm (bound : Int) (size : Nat) :
    Set.BijOn (rankedTerm bound size) (Set.Icc 1 (classSize bound size))
      {term | term.InClass bound size} := by
  refine ⟨fun rank inRange => (hasRank_rankedTerm inRange).inClass, ?_, ?_⟩
  · intro rank inRange other otherInRange same
    have ranked := hasRank_rankedTerm inRange
    rw [same] at ranked
    exact ranked.rank_eq (hasRank_rankedTerm otherInRange)
  · intro term inClass
    obtain ⟨rank, ranked⟩ := exists_hasRank_of_inClass inClass
    have inRange : rank ∈ Set.Icc 1 (classSize bound size) := ⟨ranked.one_le, ranked.le⟩
    exact ⟨rank, inRange, (hasRank_rankedTerm inRange).term_eq ranked⟩

end RankedTerm

namespace Counting

/-- Once the class is counted, drawing from it is refused if it is empty, and otherwise is to
ask for a rank and to take the term of the rank. -/
theorem on_termBy_of_count {ask : (low high : Nat) → Counting Nat} {bound size total : Nat}
    {table : CountTable} (counted : ((count bound size).on table).1 = .ok total) :
    (Sampling.termBy ask bound size).on table =
      (if total = 0 then throw (.rankOutOfRange 1 0 bound size)
        else ask 1 total >>= unrankFrom bound size).on ((count bound size).on table).2 :=
  on_bind_of_ok counted

namespace Ready

variable {kind : CountTable → Prop} {ready : Nat → Nat → Prop} (counts : Ready kind ready)
  {bound size : Nat} (isReady : ready bound size) (generator : Generator)

include counts isReady

theorem sample_answers_empty (empty : classSize bound size = 0) :
    Answers kind (sample generator bound size) (.error (.rankOutOfRange 1 0 bound size)) := by
  rw [sample_eq]
  refine (counts.answers isReady).bind_ok ?_
  rw [if_pos empty]
  exact .throw _

theorem sample_answers
    (inRange : generator ⟨1, classSize bound size⟩ ∈ Set.Icc 1 (classSize bound size)) :
    Answers kind (sample generator bound size)
      (.ok (rankedTerm bound size (generator ⟨1, classSize bound size⟩),
        [⟨1, classSize bound size⟩])) := by
  have inhabited : classSize bound size ≠ 0 := Nat.ne_of_gt (inRange.1.trans inRange.2)
  rw [sample_eq]
  refine (counts.answers isReady).bind_ok ?_
  rw [if_neg inhabited]
  exact (counts.unrankFrom_answers isReady (hasRank_rankedTerm inRange)).bind_ok (.pure _)

end Ready
end Counting

/-- Whatever a table has been used for, drawing from a class that fits the type asks for one
number, from 1 to the count of the class, and the terms of the class correspond to the answers.
An empty class is refused without asking. -/
theorem sample_uniform (type : IntType) (operations : List Operation) (bound size : Nat) :
    let table := ((Bench.fresh type).run operations).table
    let counted := ((count bound size).on table).2
    ∃ total, (count bound size).onFresh .unbounded = .ok total ∧ (type.Fits total →
      (∀ ask : (low high : Nat) → Counting Nat, (Sampling.termBy ask bound size).on table =
        (if total = 0 then throw (.rankOutOfRange 1 0 bound size)
          else ask 1 total >>= unrankFrom bound size).on counted) ∧
      (∀ generator, sample generator bound size =
        (Sampling.termBy (Sampling.ask generator) bound size).run []) ∧
      if total = 0 then
        ∀ generator, ((sample generator bound size).on table).1 =
          .error (.rankOutOfRange 1 0 bound size)
      else
        ∃ pick : Nat → Term,
          Set.BijOn pick (Set.Icc 1 total)
            {term | term.WellFormed ∧ term.size = size ∧ term.IsValid bound} ∧
          ∀ generator : Generator, generator ⟨1, total⟩ ∈ Set.Icc 1 total →
            ((sample generator bound size).on table).1 =
              .ok (pick (generator ⟨1, total⟩), [⟨1, total⟩])) := by
  intro table counted
  have from_ : SoundFrom (.fresh type) table := Bench.soundFrom_run_fresh type operations
  refine ⟨classSize bound size, count_onFresh_unbounded bound size, fun fits => ?_⟩
  have counts := ready_of_fits (.fresh type)
  refine ⟨fun ask => on_termBy_of_count (counts.answers fits table from_).1,
    fun generator => sample_eq_termBy generator bound size, ?_⟩
  split
  · next empty =>
      exact fun generator => (counts.sample_answers_empty fits generator empty table from_).1
  · next inhabited =>
      refine ⟨rankedTerm bound size, ?_, fun generator inRange => ?_⟩
      · simpa only [Term.inClass_natCast_iff] using bijOn_rankedTerm bound size
      · exact (counts.sample_answers fits generator inRange table from_).1

/-- After an overflow and a draw, a closed term of size 8 is drawn from one of two answers, and
there is no closed term of size 5. -/
theorem sample_uniform_eight_bits :
    let table := ((Bench.fresh (.signed .w8)).run
      [.ask (.count (.int 0) (.int 17)),
        .ask (.sample (.int 1) (.int 6) (Generator.cyclic 7))]).table
    (∃ answer ∈ Set.Icc 1 2, ∀ generator : Generator, generator ⟨1, 2⟩ = answer →
      ((sample generator 0 8).on table).1 = .ok (.lam (.lam (.lam (.var 1))), [⟨1, 2⟩])) ∧
    (∃ term : Term, term.size = 8 ∧ term.IsValid 0 ∧
      ((sample (Generator.cyclic 3) 0 8).on table).1 = .ok (term, [⟨1, 2⟩])) ∧
    ((sample (Generator.cyclic 3) 0 5).on table).1 = .error (.rankOutOfRange 1 0 0 5) := by
  intro table
  obtain ⟨total, counted, draws⟩ := sample_uniform (.signed .w8)
    [.ask (.count (.int 0) (.int 17)), .ask (.sample (.int 1) (.int 6) (Generator.cyclic 7))] 0 8
  obtain ⟨empty, emptyCounted, refuses⟩ := sample_uniform (.signed .w8)
    [.ask (.count (.int 0) (.int 17)), .ask (.sample (.int 1) (.int 6) (Generator.cyclic 7))] 0 5
  obtain rfl : total = 2 := (eq_classSize_of_count_onFresh counted).trans classSize_closed_eight
  obtain rfl : empty = 0 := (eq_classSize_of_count_onFresh emptyCounted).trans
    classSize_closed_five
  obtain ⟨_, _, pick, ⟨into, _, onto⟩, drawn⟩ := draws (IntType.fits_of_le_127 _ (by decide))
  obtain ⟨_, _, refused⟩ := refuses (IntType.fits_of_le_127 _ (by decide))
  refine ⟨?_, ?_, refused _⟩
  · obtain ⟨answer, inRange, picked⟩ :=
      @onto (.lam (.lam (.lam (.var 1)))) ⟨by decide, by decide, by decide⟩
    refine ⟨answer, inRange, fun generator answered => ?_⟩
    rw [← answered] at inRange picked
    rw [drawn generator inRange, picked]
  · have inRange := Generator.cyclic_inRange 3 ⟨1, 2⟩ (by decide)
    obtain ⟨_, size_eq, valid⟩ := into inRange
    exact ⟨_, size_eq, valid, drawn _ inRange⟩

end BinaryLambda
