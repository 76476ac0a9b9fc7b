import BinaryLambda.Rank
import BinaryLambda.Unrank

/-!
A class as a sequence of terms, in the order of their ranks.

A sequence knows its class and how many terms that has; the terms themselves are
made when they are asked for, from the table on which the sequence was opened.
Membership and position go by the rank of a term and search for nothing.
-/

namespace BinaryLambda

structure TermSequence where
  bound : Nat
  size : Nat
  length : Nat
  deriving DecidableEq, Repr, Inhabited

def Counting.sequence (bound size : Nat) : Counting TermSequence :=
  return ⟨bound, size, ← Counting.count bound size⟩

inductive Direction where
  | forward
  | backward
  deriving DecidableEq, Repr

namespace TermSequence

def text (sequence : TermSequence) : String :=
  "TermSequence(m=" ++ toString sequence.bound ++ ", n=" ++ toString sequence.size ++
    ", length=" ++ toString sequence.length ++ ")"

def maxListLength : Nat := 0x7fffffffffffffff

def listLength (sequence : TermSequence) : Except Error Nat :=
  if sequence.length ≤ maxListLength then .ok sequence.length else .error .lengthTooLarge

def ranks (sequence : TermSequence) : Direction → List Nat
  | .forward => (List.range sequence.length).map fun passed => passed + 1
  | .backward => (List.range sequence.length).map fun passed => sequence.length - passed

@[simp] theorem length_ranks (sequence : TermSequence) (direction : Direction) :
    (sequence.ranks direction).length = sequence.length := by
  cases direction <;> simp [ranks]

theorem mem_ranks {sequence : TermSequence} {direction : Direction} {rank : Nat} :
    rank ∈ sequence.ranks direction ↔ 1 ≤ rank ∧ rank ≤ sequence.length := by
  cases direction with
  | forward =>
      simp only [ranks, List.mem_map, List.mem_range]
      constructor
      · rintro ⟨passed, passedBound, rfl⟩
        omega
      · intro inside
        exact ⟨rank - 1, by omega, by omega⟩
  | backward =>
      simp only [ranks, List.mem_map, List.mem_range]
      constructor
      · rintro ⟨passed, passedBound, rfl⟩
        omega
      · intro inside
        exact ⟨sequence.length - rank, by omega, by omega⟩

def term (sequence : TermSequence) (rank : Nat) : Counting Term :=
  Counting.unrankFrom sequence.bound sequence.size rank

def get (sequence : TermSequence) (rank : Int) : Counting Term :=
  if 1 ≤ rank ∧ rank ≤ sequence.length then
    sequence.term rank.toNat
  else
    throw (.rankOutOfRange rank sequence.length sequence.bound sequence.size)

def index (sequence : TermSequence) (term : Term) : Counting Nat :=
  if term.size = sequence.size then
    Counting.rank sequence.bound term
  else
    throw (.wrongSize term sequence.size)

/-- The term is in the sequence. A term that has no rank is not; other failures
on the way to its rank remain failures. -/
def contains (sequence : TermSequence) (term : Term) : Counting Bool :=
  if term.size = sequence.size then
    tryCatch (do let _ ← Counting.rank sequence.bound term; return true) fun error =>
      if error.kind = .invalidArgument then return false else throw error
  else
    return false

/-- All terms in the order of a walk. A forward list is laid out by its length
beforehand, and so needs one that a list may have. -/
def terms (sequence : TermSequence) : Direction → Counting (List Term)
  | .forward => do
      match sequence.listLength with
      | .ok _ => (sequence.ranks .forward).mapM sequence.term
      | .error error => throw error
  | .backward => (sequence.ranks .backward).mapM sequence.term

end TermSequence
end BinaryLambda
