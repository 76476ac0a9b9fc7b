import BinaryLambda.Proofs.Bench
import BinaryLambda.Proofs.Table.Quiet

/-!
A class that has been counted needs no further counting.

On a bench every table is closed, also after failures and lookups. So what is asked about
a class that is in the table, or about a sequence of it, is answered from the table as it
stands.
-/

namespace BinaryLambda

open Counting CountTable

namespace Literal

theorem kind_of_position_eq_error {given : Literal} {error : Error}
    (refused : given.position = .error error) : error.kind = .badType := by
  unfold position at refused
  split at refused
  · cases refused
  · cases refused
    rfl

end Literal

theorem Draft.kind_of_term_eq_error {draft : Draft} {error : Error}
    (refused : draft.term = .error error) : error.kind = .badValue := by
  induction draft with
  | var index =>
      unfold Draft.term at refused
      split at refused <;> cases refused
      rfl
  | lam body inductionHypothesis =>
      rcases bind_eq_error_iff.mp refused with bodyRefused | ⟨_, _, ⟨⟩⟩
      exact inductionHypothesis bodyRefused
  | app func arg funcHypothesis argHypothesis =>
      rcases bind_eq_error_iff.mp refused with funcRefused | ⟨_, _, refused⟩
      · exact funcHypothesis funcRefused
      · rcases bind_eq_error_iff.mp refused with argRefused | ⟨_, _, ⟨⟩⟩
        exact argHypothesis argRefused
  | foreign size => cases refused

def SequenceQuery.HasRoom (size : Nat) : SequenceQuery → Prop
  | .index term | .contains term =>
      ∀ value, term.term = .ok value → value.size = size → value.HasRoom
  | _ => True

namespace Counting

variable {table : CountTable}

theorem quiet_withTerm {α : Type} {draft : Draft} {next : Term → Counting α}
    (rest : ∀ term, draft.term = .ok term → Quiet table (next term)) :
    Quiet table (reading draft.term >>= next) := by
  cases read : draft.term with
  | ok term => exact rest term read
  | error error =>
      apply Quiet.throw
      rw [Draft.kind_of_term_eq_error read]
      decide

theorem quiet_sequenceAnswer (closed : table.Closed) {sequence : TermSequence}
    (member : ⟨sequence.bound, sequence.size⟩ ∈ table) {query : SequenceQuery}
    (room : query.HasRoom sequence.size) : Quiet table (query.answer sequence) := by
  cases query with
  | get rank =>
      apply Quiet.bind
      · apply Quiet.reading
        intro error refused
        rw [Literal.kind_of_position_eq_error refused]
        decide
      · exact fun number => (quiet_get closed member number).bind fun term => .pure _
  | index draft =>
      apply quiet_withTerm
      exact fun term read => (quiet_index closed member (room term read)).bind fun rank => .pure _
  | contains draft =>
      apply quiet_withTerm
      exact fun term read => (quiet_contains closed member (room term read)).bind fun _ => .pure _
  | containsValue value => exact .pure _
  | terms direction => exact (quiet_terms closed member direction).bind fun terms => .pure _

end Counting

theorem Bench.closedFrom_run_fresh (type : IntType) (operations : List Operation) :
    ClosedFrom (.fresh type) ((Bench.fresh type).run operations).table :=
  @Bench.kept_run (ClosedFrom (.fresh type))
    (fun bound size _ from_ => closedFrom_count from_ bound size) (Bench.fresh type) operations
    (fun bound size _ table from_ => (lookup_gathers ⟨bound, size⟩ _ table from_).1)
    (closedFrom_fresh type)

/-- Whatever a table has been used for, it answers what is asked about a class that it has,
and about a sequence of that class, without a change and without an overflow. -/
theorem counted_class_quiet (type : IntType) (operations : List Operation) {bound size : Nat} :
    let table := ((Bench.fresh type).run operations).table
    ⟨bound, size⟩ ∈ table →
      Quiet table (Query.count (.int bound) (.int size)).answer ∧
      (∀ rank, Quiet table (Query.unrank (.int bound) (.int size) rank).answer) ∧
      (∀ term : Term, term.HasRoom → term.size = size →
        Quiet table (Query.rank (.int bound) (.ofTerm term)).answer) ∧
      (∀ generator, Quiet table (Query.sample (.int bound) (.int size) generator).answer) ∧
      Quiet table (Query.sequence (.int bound) (.int size)).answer ∧
      ∀ sequence : TermSequence, sequence.bound = bound → sequence.size = size →
        (∀ query : SequenceQuery, query.HasRoom size → Quiet table (query.answer sequence)) ∧
        ∀ cursor : Cursor, cursor.sequence = sequence →
          ∀ times, Quiet table (cursor.advance times) := by
  intro table member
  have closed : table.Closed := (Bench.closedFrom_run_fresh type operations).closed
  simp only [Query.answer, withClass_ofNat, Literal.natural_ofNat, Draft.term_ofTerm]
  refine ⟨?_, ?_, ?_, ?_, ?_, ?_⟩
  · exact (quiet_count member).bind fun total => .pure _
  · intro rank
    apply Quiet.bind
    · apply Quiet.reading
      intro error refused
      rw [Literal.kind_of_natural_eq_error refused]
      decide
    · exact fun number => (quiet_unrank closed member number).bind fun term => .pure _
  · intro term room size_eq
    exact (quiet_rank closed room size_eq member).bind fun rank => .pure _
  · exact fun generator => (quiet_sample closed member generator).bind fun drawn => .pure _
  · exact ((quiet_count member).bind fun total => .pure _).bind fun sequence => .pure _
  · rintro sequence rfl rfl
    refine ⟨fun query room => quiet_sequenceAnswer closed member room, ?_⟩
    exact fun cursor sequence_eq times => quiet_advance closed member sequence_eq times

/-- After an overflow and a lookup, the closed class of size 4 is worked in: any rank is
asked for, and a term of that size that has leaves from outside. -/
theorem counted_class_quiet_after_overflow :
    let table := ((Bench.fresh (.signed .w8)).run
      ([.lookup (-1) 9, .ask (.count (.int 0) (.int 17))] ++
        [.openSequence (.int (0 : Nat)) (.int (4 : Nat))])).table
    ⟨0, 4⟩ ∈ table ∧
      (∀ rank, Quiet table (Query.unrank (.int (0 : Nat)) (.int (4 : Nat)) rank).answer) ∧
      Quiet table
        (Query.rank (.int (0 : Nat)) (.ofTerm (.app (.foreign 0) (.foreign 2)))).answer ∧
      Quiet table
        (SequenceQuery.answer ⟨0, 4, 1⟩ (.contains (.ofTerm (.app (.foreign 0) (.var 1))))) := by
  intro table
  have opened := Bench.mem_sequences_run_fresh _
    [.lookup (-1) 9, .ask (.count (.int 0) (.int 17))] (IntType.fits_closed_four (.signed .w8))
  have member : ⟨(0 : Nat), (4 : Nat)⟩ ∈ table :=
    mem_iff_exists_get?.mpr ⟨_, Bench.hasSequences_run_fresh _ _ _ opened⟩
  obtain ⟨_, unranked, ranked, _, _, asked⟩ := counted_class_quiet (.signed .w8) _ member
  refine ⟨member, unranked, ranked _ ⟨Int.le_refl 0, Int.le.intro 2 rfl⟩ (by decide), ?_⟩
  apply (asked ⟨0, 4, 1⟩ rfl rfl).1
  intro value read _
  cases read
  exact ⟨Int.le_refl 0, trivial⟩

end BinaryLambda
