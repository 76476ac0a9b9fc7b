import BinaryLambda.Sequence.Basic

/-!
Cursors: walks through a sequence that stop wherever they like.

A cursor is a value that knows how many terms it has delivered. Moving it yields
the next terms and the cursor behind them, so any number of cursors may walk
through one sequence without disturbing each other.
-/

namespace BinaryLambda

structure Cursor where
  sequence : TermSequence
  direction : Direction
  delivered : Nat
  deriving DecidableEq, Repr

def TermSequence.cursor (sequence : TermSequence) (direction : Direction) : Cursor :=
  ⟨sequence, direction, 0⟩

namespace Cursor

def nextRank? (cursor : Cursor) : Option Nat :=
  if cursor.delivered < cursor.sequence.length then
    match cursor.direction with
    | .forward => some (cursor.delivered + 1)
    | .backward => some (cursor.sequence.length - cursor.delivered)
  else
    none

theorem nextRank?_eq_getElem? (cursor : Cursor) :
    cursor.nextRank? = (cursor.sequence.ranks cursor.direction)[cursor.delivered]? := by
  by_cases inside : cursor.delivered < cursor.sequence.length
  · cases walk : cursor.direction <;> simp [nextRank?, TermSequence.ranks, inside, walk]
  · simp [nextRank?, inside]

def moved (cursor : Cursor) : Cursor := { cursor with delivered := cursor.delivered + 1 }

/-- What a cursor delivers: some terms, whether it was asked for a term that it
did not have, and the cursor behind them. -/
structure Delivery where
  terms : List Term
  exhausted : Bool
  cursor : Cursor
  deriving DecidableEq, Repr

def advance (cursor : Cursor) : (times : Nat) → Counting Delivery
  | 0 => return ⟨[], false, cursor⟩
  | times + 1 =>
      match cursor.nextRank? with
      | none => return ⟨[], true, cursor⟩
      | some rank => do
          let term ← cursor.sequence.term rank
          let rest ← cursor.moved.advance times
          return { rest with terms := term :: rest.terms }

end Cursor
end BinaryLambda
