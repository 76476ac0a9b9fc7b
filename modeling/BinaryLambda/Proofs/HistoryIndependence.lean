import BinaryLambda.Proofs.Bench

/-!
Answers do not depend on history.

What has been asked of a table before decides which classes it has counted, and so
which counts an operation stores and which of them are checked on the way. It does not
decide the answer, nor which class an overflow shows: a sound table of a type answers
as a fresh one of that type does.
-/

namespace BinaryLambda

open Counting CountTable

namespace CountTable.Sound

variable {table : CountTable} (sound : table.Sound)

include sound

theorem soundPair_fresh :
    SoundPair (fresh table.intType) (fresh table.intType) table (fresh table.intType) :=
  ⟨rfl, sound.soundFrom_fresh, (sound_fresh _).soundFrom⟩

theorem answer_eq_onFresh (query : Query) :
    (query.answer.on table).1 = query.answer.onFresh table.intType := by
  have respects := (uniform_soundPair (fresh table.intType) (fresh table.intType)).respects_answer
    query fun _ _ _ pair => pair.intType_eq
  exact (respects.same sound.soundPair_fresh).1

theorem lookup_eq_onFresh (bound size : Int) :
    ((lookup bound size).on table).1 = (lookup bound size).onFresh table.intType :=
  ((lookup_respects_soundPair bound size).same sound.soundPair_fresh).1

theorem sequenceAnswer_eq_onFresh {sequence : TermSequence}
    (counted : table.get? ⟨sequence.bound, sequence.size⟩ = some sequence.length)
    (query : SequenceQuery) :
    ((query.answer sequence).on table).1 =
      (do query.answer (← Counting.sequence sequence.bound sequence.size) : Counting Answer).onFresh
        table.intType := by
  have opens : Answers (SoundFrom (fresh table.intType))
      (Counting.sequence sequence.bound sequence.size) (.ok sequence) := by
    have answers := @count_answers (fresh table.intType) sequence.bound sequence.size
    rw [checkedCount_eq_ok_of_get? sound.soundFrom_fresh counted] at answers
    exact answers.bind_ok (.pure sequence)
  obtain ⟨reopened, opened⟩ := opens _ (sound_fresh table.intType).soundFrom
  have respects := (uniform_soundPair (fresh table.intType)
    (fresh table.intType)).respects_sequenceAnswer sequence query
  rw [onFresh, on_bind_of_ok reopened]
  exact (respects.same ⟨rfl, sound.soundFrom_fresh, opened⟩).1

end CountTable.Sound

/-- Whatever a table has been used for, it answers as a fresh table of its type does. -/
theorem history_independence (type : IntType) (operations : List Operation) :
    let bench := (Bench.fresh type).run operations
    (∀ query : Query, (query.answer.on bench.table).1 = query.answer.onFresh type) ∧
      (∀ bound size : Int, ((lookup bound size).on bench.table).1 =
        (lookup bound size).onFresh type) ∧
      ∀ sequence ∈ bench.handles.sequences, ∀ query : SequenceQuery,
        ((query.answer sequence).on bench.table).1 =
          (do query.answer (← Counting.sequence sequence.bound sequence.size)).onFresh type := by
  intro bench
  have sound : bench.table.Sound := (Bench.soundFrom_run_fresh type operations).sound
  have type_eq : bench.table.intType = type := Bench.intType_run_fresh type operations
  refine ⟨fun query => ?_, fun bound size => ?_, fun sequence member query => ?_⟩
  · rw [sound.answer_eq_onFresh, type_eq]
  · rw [sound.lookup_eq_onFresh, type_eq]
  · have counted := Bench.hasSequences_run_fresh type operations sequence member
    rw [sound.sequenceAnswer_eq_onFresh counted, type_eq]

theorem history_independence_after_overflow :
    ⟨0, 4, 1⟩ ∈ ((Bench.fresh (.signed .w8)).run ([.ask (.count (.int 0) (.int 17))] ++
      [.openSequence (.int (0 : Nat)) (.int (4 : Nat))])).handles.sequences ∧
    ∀ query : SequenceQuery,
      ((query.answer ⟨0, 4, 1⟩).on ((Bench.fresh (.signed .w8)).run
        ([.ask (.count (.int 0) (.int 17))] ++
          [.openSequence (.int (0 : Nat)) (.int (4 : Nat))])).table).1 =
        (do query.answer (← Counting.sequence 0 4)).onFresh (.signed .w8) := by
  have opened := Bench.mem_sequences_run_fresh _ [.ask (.count (.int 0) (.int 17))]
    (IntType.fits_closed_four (.signed .w8))
  rw [classSize_closed_four] at opened
  exact ⟨opened, (history_independence (.signed .w8) _).2.2 ⟨0, 4, 1⟩ opened⟩

end BinaryLambda
