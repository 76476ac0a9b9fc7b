import BinaryLambda.Argument
import BinaryLambda.Sample
import BinaryLambda.Sequence.Cursor
import BinaryLambda.Table.Export
import BinaryLambda.Term.Draft

/-!
Queries: what a table, and a sequence opened on it, can be asked.

A query holds its arguments as they were handed in. Answering it reads them from
left to right, a term before all else, and then does its work on the table.
-/

namespace BinaryLambda

inductive Query where
  | count (bound size : Literal)
  | unrank (bound size rank : Literal)
  | rank (bound : Literal) (term : Draft)
  | sample (bound size : Literal) (generator : Generator)
  | sequence (bound size : Literal)
  | matrix (bound size : Literal)

inductive SequenceQuery where
  | get (rank : Literal)
  | index (term : Draft)
  | contains (term : Draft)
  /-- Membership of a value that is no term. -/
  | containsValue (value : Literal)
  | terms (direction : Direction)

inductive Answer where
  | nothing
  | flag (value : Bool)
  | number (value : Nat)
  | text (value : String)
  | term (value : Term)
  | terms (values : List Term)
  | drawn (term : Term) (asked : List Draw)
  | delivered (terms : List Term) (exhausted : Bool)
  | sequence (value : TermSequence)
  /-- A frame, or nothing where the table has no frame. -/
  | frame (value : Option Frame)
  deriving DecidableEq, Repr, Inhabited

namespace Counting

variable {α : Type}

def reading (result : Except Error α) : Counting α :=
  match result with
  | .ok value => return value
  | .error error => throw error

def withClass (bound size : Literal) (next : Nat → Nat → Counting α) : Counting α := do
  let bound ← reading (bound.natural "m")
  let size ← reading (size.natural "n")
  next bound size

end Counting

def Query.answer : Query → Counting Answer
  | .count bound size => Counting.withClass bound size fun bound size =>
      return .number (← Counting.count bound size)
  | .unrank bound size given => Counting.withClass bound size fun bound size => do
      let number ← Counting.reading (given.natural "k")
      return .term (← Counting.unrank bound size number)
  | .rank bound term => do
      let term ← Counting.reading term.term
      let bound ← Counting.reading (bound.natural "m")
      return .number (← Counting.rank bound term)
  | .sample bound size generator => Counting.withClass bound size fun bound size => do
      let (term, asked) ← Counting.sample generator bound size
      return .drawn term asked
  | .sequence bound size => Counting.withClass bound size fun bound size =>
      return .sequence (← Counting.sequence bound size)
  | .matrix bound size => Counting.withClass bound size fun bound size =>
      return .frame (some (← Counting.matrix bound size))

def SequenceQuery.answer (sequence : TermSequence) : SequenceQuery → Counting Answer
  | .get rank => do
      let number ← Counting.reading rank.position
      return .term (← sequence.get number)
  | .index term => do
      let term ← Counting.reading term.term
      return .number (← sequence.index term)
  | .contains term => do
      let term ← Counting.reading term.term
      return .flag (← sequence.contains term)
  | .containsValue _ => return .flag false
  | .terms direction => return .terms (← sequence.terms direction)

end BinaryLambda
