import BinaryLambda.Proofs.Rank.Unranking
import BinaryLambda.Sequence.Cursor

/-!
Walks through a sequence.

A walk goes through the terms of a class, forwards or backwards (`walkTerms`). Where the
class is counted without a failure, a cursor delivers the terms that remain, as many as it
is asked for, and is exhausted if there are fewer (`Ready.advance_answers`).
-/

namespace BinaryLambda

namespace TermSequence

def IsExact (sequence : TermSequence) : Prop :=
  sequence.length = classSize sequence.bound sequence.size

def ofClass (bound size : Nat) : TermSequence := ⟨bound, size, classSize bound size⟩

theorem isExact_ofClass (bound size : Nat) : (ofClass bound size).IsExact := rfl

def Delivers (sequence : TermSequence) (table : CountTable) (direction : Direction)
    (terms : List Term) : Prop :=
  ∃ after, (((sequence.cursor direction).advance (terms.length + 1)).on table).1 =
    .ok ⟨terms, true, after⟩

end TermSequence

def walkTerms (bound : Int) (size : Nat) : Direction → List Term
  | .forward => classTerms bound size
  | .backward => (classTerms bound size).reverse

theorem length_walkTerms (bound : Int) (size : Nat) (direction : Direction) :
    (walkTerms bound size direction).length = classSize bound size := by
  cases direction with
  | forward => exact length_classTerms bound size
  | backward => exact List.length_reverse.trans (length_classTerms bound size)

/-- The rank of the term that a walk through a class delivers at a place, from 1 on. -/
def walkRank (total place : Nat) : Direction → Nat
  | .forward => place
  | .backward => total + 1 - place

theorem hasRank_of_getElem?_walkTerms {bound : Int} {size place : Nat} {direction : Direction}
    {term : Term} (found : (walkTerms bound size direction)[place]? = some term) :
    HasRank bound size (walkRank (classSize bound size) (place + 1) direction) term := by
  have inside := (List.getElem?_eq_some_iff.mp found).1
  rw [length_walkTerms] at inside
  cases direction with
  | forward => exact ⟨Nat.le_add_left 1 place, found⟩
  | backward =>
      rw [← length_classTerms] at inside
      rw [walkTerms, List.getElem?_reverse inside] at found
      rw [walkRank, ← length_classTerms, Nat.add_sub_add_right]
      refine ⟨by omega, ?_⟩
      rwa [Nat.sub_right_comm]

namespace Cursor

def remaining (cursor : Cursor) : List Term :=
  (walkTerms cursor.sequence.bound cursor.sequence.size cursor.direction).drop cursor.delivered

def behind (cursor : Cursor) (times : Nat) : Cursor :=
  { cursor with delivered := cursor.delivered + times }

theorem behind_succ (cursor : Cursor) (times : Nat) :
    cursor.behind (times + 1) = cursor.moved.behind times := by
  rw [behind, behind, moved, Nat.add_assoc, Nat.add_comm times]

theorem remaining_behind (cursor : Cursor) (times : Nat) :
    (cursor.behind (min times cursor.remaining.length)).remaining =
      cursor.remaining.drop times := by
  rw [List.drop_eq_drop_min]
  exact List.drop_drop.symm

variable {cursor : Cursor}

theorem eq_walkRank_of_nextRank? {rank : Nat} (next : cursor.nextRank? = some rank) :
    cursor.delivered < cursor.sequence.length ∧
      rank = walkRank cursor.sequence.length (cursor.delivered + 1) cursor.direction := by
  unfold nextRank? at next
  split at next
  · next inside =>
      refine ⟨inside, ?_⟩
      cases walk : cursor.direction with
      | forward =>
          rw [walk] at next
          cases next
          rfl
      | backward =>
          rw [walk] at next
          cases next
          exact (Nat.add_sub_add_right _ 1 _).symm
  · cases next

variable (isExact : cursor.sequence.IsExact)

include isExact

theorem remaining_eq_nil (last : cursor.nextRank? = none) : cursor.remaining = [] := by
  rw [nextRank?_eq_getElem?, List.getElem?_eq_none_iff, TermSequence.length_ranks] at last
  rw [remaining, List.drop_eq_nil_iff, length_walkTerms, ← isExact]
  exact last

theorem exists_hasRank_of_nextRank? {rank : Nat} (next : cursor.nextRank? = some rank) :
    ∃ term, HasRank cursor.sequence.bound cursor.sequence.size rank term ∧
      (walkTerms cursor.sequence.bound cursor.sequence.size cursor.direction)[cursor.delivered]? =
        some term := by
  obtain ⟨inside, rfl⟩ := eq_walkRank_of_nextRank? next
  rw [isExact] at inside ⊢
  have onWalk : cursor.delivered <
      (walkTerms cursor.sequence.bound cursor.sequence.size cursor.direction).length := by
    rw [length_walkTerms]
    exact inside
  have found := List.getElem?_eq_getElem onWalk
  exact ⟨_, hasRank_of_getElem?_walkTerms found, found⟩

theorem exists_remaining_eq_cons {rank : Nat} (next : cursor.nextRank? = some rank) :
    ∃ term, HasRank cursor.sequence.bound cursor.sequence.size rank term ∧
      cursor.remaining = term :: cursor.moved.remaining := by
  obtain ⟨term, ranked, found⟩ := exists_hasRank_of_nextRank? isExact next
  obtain ⟨inside, term_eq⟩ := List.getElem?_eq_some_iff.mp found
  refine ⟨term, ranked, ?_⟩
  rw [remaining, List.drop_eq_getElem_cons inside, term_eq]
  rfl

end Cursor

namespace Counting
namespace Ready

variable {kind : CountTable → Prop} {ready : Nat → Nat → Prop}

variable (counts : Ready kind ready)

include counts

theorem advance_answers {cursor : Cursor} (isExact : cursor.sequence.IsExact)
    (isReady : ready cursor.sequence.bound cursor.sequence.size) (times : Nat) :
    Answers kind (cursor.advance times) (.ok ⟨cursor.remaining.take times,
      decide (cursor.remaining.length < times),
      cursor.behind (min times cursor.remaining.length)⟩) := by
  induction times generalizing cursor with
  | zero =>
      rw [Nat.zero_min]
      exact .pure _
  | succ times inductionHypothesis =>
      unfold Cursor.advance
      cases next : cursor.nextRank? with
      | none =>
          rw [Cursor.remaining_eq_nil isExact next, List.length_nil, Nat.min_zero,
            decide_eq_true (Nat.succ_pos times)]
          exact .pure _
      | some rank =>
          obtain ⟨term, ranked, remaining_eq⟩ := Cursor.exists_remaining_eq_cons isExact next
          rw [remaining_eq, List.take_succ_cons, List.length_cons, Nat.succ_min_succ,
            Cursor.behind_succ, decide_eq_decide.mpr Nat.succ_lt_succ_iff]
          refine (counts.unrankFrom_answers isReady ranked).bind_ok ?_
          exact (@inductionHypothesis cursor.moved isExact isReady).bind_ok (.pure _)

theorem delivers_walkTerms {sequence : TermSequence} (isExact : sequence.IsExact)
    (isReady : ready sequence.bound sequence.size) {table : CountTable} (ofKind : kind table)
    (direction : Direction) :
    sequence.Delivers table direction (walkTerms sequence.bound sequence.size direction) := by
  have answers := @advance_answers _ _ counts (sequence.cursor direction) isExact isReady
    ((walkTerms sequence.bound sequence.size direction).length + 1)
  rw [Cursor.remaining, TermSequence.cursor, List.drop_zero, List.take_of_length_le (Nat.le_succ _),
    decide_eq_true (Nat.lt_succ_self _)] at answers
  exact ⟨_, (answers table ofKind).1⟩

end Ready
end Counting
end BinaryLambda
