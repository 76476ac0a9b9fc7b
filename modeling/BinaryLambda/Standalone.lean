import BinaryLambda.Query

/-!
Operations on a table of their own.

Each of them makes a fresh table of the integer type it is given, or of the
unbounded one, and forgets it afterwards. Counting and unranking read the class
before the type; ranking and enumerating read the type first.
-/

namespace BinaryLambda
namespace Standalone

def count (bound size intType : Literal) : Except Error Nat := do
  let bound ← bound.natural "m"
  let size ← size.natural "n"
  let intType ← intType.intTypeOrDefault
  (Counting.count bound size).onFresh intType

def unrank (bound size rank intType : Literal) : Except Error Term := do
  let bound ← bound.natural "m"
  let size ← size.natural "n"
  let rank ← rank.natural "k"
  let intType ← intType.intTypeOrDefault
  (Counting.unrank bound size rank).onFresh intType

def rank (bound : Literal) (term : Draft) (intType : Literal) : Except Error Nat := do
  let term ← term.term
  let intType ← intType.intTypeOrDefault
  let bound ← bound.natural "m"
  (Counting.rank bound term).onFresh intType

def sample (bound size : Literal) (generator : Generator) : Except Error (Term × List Draw) := do
  let bound ← bound.natural "m"
  let size ← size.natural "n"
  (Counting.sample generator bound size).onFresh .unbounded

def enumerate (bound size intType : Literal) : Except Error (TermSequence × CountTable) := do
  let intType ← intType.intTypeOrDefault
  let bound ← bound.natural "m"
  let size ← size.natural "n"
  match (Counting.sequence bound size).on (.fresh intType) with
  | (.ok sequence, table) => return (sequence, table)
  | (.error error, _) => throw error

def enumerateTerms (bound size intType : Literal) : Except Error (TermSequence × List Term) := do
  let (sequence, table) ← enumerate bound size intType
  let terms ← ((sequence.terms .forward).on table).1
  return (sequence, terms)

end Standalone
end BinaryLambda
