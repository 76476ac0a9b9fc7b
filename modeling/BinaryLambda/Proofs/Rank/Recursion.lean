import BinaryLambda.Proofs.CountedClass
import BinaryLambda.Proofs.Rank.Unranking
import Mathlib.Logic.Relation

/-!
The calls of unranking.

Unranking finds a choice for the root of the term and calls itself for the parts that the
choice demands (`Call.unrank_eq`). The choice is found without a bound of its own on the scan
through the sizes of the function: the scan ends because the abstractions, the blocks of
applications and the variable make up the class, so that a rank of the class is that of a term
(`Ready.exists_choose`). The ranks of the parts are ranks of their classes again, so the same is
true of every call that is made on the way (`Call.IsSafe.of_reaches`).
-/

namespace BinaryLambda

open Counting CountTable Relation

structure Call where
  bound : Nat
  size : Nat
  rank : Nat

/-- The calls for the parts of a term, from left to right. -/
def Choice.calls (bound : Nat) : {size : Nat} → Choice size → List Call
  | _, .variable => []
  | body + 2, .abstraction rank => [⟨bound + 1, body, rank⟩]
  | _, .application slot =>
      [⟨bound, slot.funcSize, slot.funcRank⟩, ⟨bound, slot.argSize, slot.argRank⟩]

def Choice.term : {size : Nat} → Choice size → List Term → Term
  | _, .abstraction _, [body] => .lam body
  | _, .application _, [func, arg] => .app func arg
  | size, _, _ => .var (size - 1)

namespace Call

def unrank (call : Call) : Counting Term := unrankFrom call.bound call.size call.rank

def choose (call : Call) : Counting (Choice call.size) :=
  Counting.choose call.bound call.size call.rank

theorem unrank_eq (call : Call) : call.unrank = (do
    let choice ← call.choose
    let parts ← (choice.calls call.bound).mapM unrank
    return choice.term parts) := by
  obtain ⟨bound, size, rank⟩ := call
  rw [unrank, unrankFrom]
  refine congrArg (choose ⟨bound, size, rank⟩ >>= ·) (funext fun choice => ?_)
  cases choice with
  | «variable» => simp [Choice.calls, Choice.term]
  | abstraction rank => simp [Choice.calls, Choice.term, unrank]
  | application slot => simp [Choice.calls, Choice.term, unrank]

def Makes (table : CountTable) (call callee : Call) : Prop :=
  ∃ choice, (call.choose.on table).1 = .ok choice ∧ callee ∈ choice.calls call.bound

structure IsSafe (table : CountTable) (call : Call) : Prop where
  counted : ⟨call.bound, call.size⟩ ∈ table
  one_le : 1 ≤ call.rank
  rank_le : call.rank ≤ classSize call.bound call.size

end Call

/-- The slot is where the scan for a rank stops: at a size of the function that leaves one for
the argument, and at a place of the block of that size, which is divided by the number of
arguments. -/
structure Slot.IsPlaced (bound rank : Nat) {size : Nat} (slot : Slot size) : Prop where
  funcSize_le : slot.funcSize ≤ size
  divisor_pos : 1 ≤ classSize bound slot.argSize
  exists_place : ∃ place < classSize bound slot.funcSize * classSize bound slot.argSize,
    applicationsBelow bound size slot.funcSize + (place + 1) = rank ∧
      slot.funcRank = place / classSize bound slot.argSize + 1 ∧
      slot.argRank = place % classSize bound slot.argSize + 1

/-- The scan is for the ranks behind those of the abstractions. -/
def Choice.IsPlaced (bound rank : Nat) : {size : Nat} → Choice size → Prop
  | _, @Choice.application parts slot =>
      classSize (bound + 1 : Nat) parts < rank ∧
        slot.IsPlaced bound (rank - classSize (bound + 1 : Nat) parts)
  | _, _ => True

theorem Slot.isPlaced_of_ranks {bound size rank : Nat} {slot : Slot size}
    (func : 1 ≤ slot.funcRank ∧ slot.funcRank ≤ classSize bound slot.funcSize)
    (arg : 1 ≤ slot.argRank ∧ slot.argRank ≤ classSize bound slot.argSize)
    (rank_eq : rank = applicationsBelow bound size slot.funcSize +
      ((slot.funcRank - 1) * classSize bound slot.argSize + slot.argRank)) :
    slot.IsPlaced bound rank := by
  obtain ⟨funcSize, argSize, funcRank, argRank, size_eq⟩ := slot
  simp only at func arg rank_eq
  obtain ⟨funcPlace, rfl⟩ := Nat.exists_eq_add_of_le' func.1
  obtain ⟨argPlace, rfl⟩ := Nat.exists_eq_add_of_le' arg.1
  have divisorPos : 1 ≤ classSize bound argSize := Nat.le_trans arg.1 arg.2
  have place_eq : argPlace + classSize bound argSize * funcPlace =
      funcPlace * classSize bound argSize + argPlace := by
    rw [Nat.mul_comm, Nat.add_comm]
  obtain ⟨quotient, remainder⟩ := (Nat.div_mod_unique divisorPos).mpr ⟨place_eq, arg.2⟩
  refine ⟨Nat.le.intro size_eq, divisorPos, _, ?_, ?_, congrArg (· + 1) quotient.symm,
    congrArg (· + 1) remainder.symm⟩
  · calc funcPlace * classSize bound argSize + argPlace
        < funcPlace * classSize bound argSize + classSize bound argSize :=
          Nat.add_lt_add_left arg.2 _
      _ = (funcPlace + 1) * classSize bound argSize := (Nat.succ_mul _ _).symm
      _ ≤ classSize bound funcSize * classSize bound argSize := Nat.mul_le_mul_right _ func.2
  · rw [rank_eq, Nat.add_sub_cancel, Nat.add_assoc]

namespace Counting
namespace Ready

variable {table : CountTable}
  (counts : Ready (· = table) fun bound size => ⟨bound, size⟩ ∈ table)

include counts

theorem exists_choose_application {bound parts rank : Nat} {func arg : Term}
    (member : ⟨bound, (parts + 2 : Nat)⟩ ∈ table)
    (ranked : HasRank bound (parts + 2) rank (.app func arg)) :
    ∃ slot : Slot parts,
      Answers (· = table) (choose bound (parts + 2) rank) (.ok (.application slot)) ∧
      (Choice.application slot).IsPlaced bound rank ∧
      (1 ≤ slot.funcRank ∧ slot.funcRank ≤ classSize bound slot.funcSize) ∧
      1 ≤ slot.argRank ∧ slot.argRank ≤ classSize bound slot.argSize := by
  obtain ⟨funcSize, funcSizeLe, funcRank, argRank, funcRanked, argRanked, rank_eq⟩ :=
    hasRank_app_iff.mp ranked
  have func := And.intro funcRanked.one_le funcRanked.le
  have arg := And.intro argRanked.one_le argRanked.le
  let slot : Slot parts := ⟨funcSize, parts - funcSize, funcRank, argRank, by omega⟩
  have chosen : Answers (· = table) (choose bound (parts + 2) rank) (.ok (.application slot)) :=
    counts.choose_app_answers member ranked funcRanked argRanked rank_eq
  have behind_eq : rank - classSize (bound + 1 : Nat) parts =
      applicationsBelow bound parts funcSize +
        ((funcRank - 1) * classSize bound (parts - funcSize) + argRank) := by
    rw [rank_eq, Nat.cast_succ]
    omega
  have isPlaced : (Choice.application slot).IsPlaced bound rank :=
    ⟨by omega, Slot.isPlaced_of_ranks func arg behind_eq⟩
  exact ⟨slot, chosen, isPlaced, func, arg⟩

/-- A rank of a class has a choice, and what this demands of the parts are ranks again. -/
theorem exists_choose {call : Call} (isSafe : call.IsSafe table) :
    ∃ choice : Choice call.size, call.choose.on table = (.ok choice, table) ∧
      choice.IsPlaced call.bound call.rank ∧
      ∀ callee ∈ choice.calls call.bound,
        call.bound ≤ callee.bound ∧ callee.size + 2 ≤ call.size ∧ callee.IsSafe table := by
  obtain ⟨bound, size, rank⟩ := call
  obtain ⟨member, oneLe, rankLe⟩ := isSafe
  simp only at member oneLe rankLe ⊢
  have settled {choice : Choice size} (answers : Answers (· = table) (choose bound size rank)
      (.ok choice)) : (Call.choose ⟨bound, size, rank⟩).on table = (.ok choice, table) :=
    Prod.ext (answers table rfl).1 (answers table rfl).2
  -- The term of the rank tells which choice is made, and its parts have the ranks of the calls.
  obtain ⟨term, ranked⟩ := exists_hasRank_of_le oneLe rankLe
  cases term with
  | var index =>
      exact ⟨.variable, settled (counts.choose_var_answers member ranked), trivial, nofun⟩
  | lam inner =>
      obtain ⟨body, rfl⟩ := Nat.exists_eq_add_of_le' ranked.two_le
      have innerRanked : HasRank (bound + 1 : Nat) body rank inner := hasRank_lam_iff.mp ranked
      refine ⟨.abstraction rank, settled (counts.choose_lam_answers member ranked), trivial, ?_⟩
      intro callee isCallee
      obtain rfl := List.mem_singleton.mp isCallee
      exact ⟨Nat.le_succ bound, Nat.le_refl _, counts.bodies member, oneLe, innerRanked.le⟩
  | app func arg =>
      obtain ⟨parts, rfl⟩ := Nat.exists_eq_add_of_le' ranked.two_le
      obtain ⟨slot, chosen, isPlaced, func, arg⟩ := counts.exists_choose_application member ranked
      refine ⟨.application slot, settled chosen, isPlaced, ?_⟩
      have funcSizeLe : slot.funcSize ≤ parts := Nat.le.intro slot.size_eq
      have argSizeLe : slot.argSize ≤ parts := Nat.le.intro ((Nat.add_comm _ _).trans slot.size_eq)
      intro callee isCallee
      rcases List.mem_pair.mp isCallee with rfl | rfl
      · exact ⟨Nat.le_refl _, Nat.add_le_add_right funcSizeLe 2, counts.parts member funcSizeLe,
          func.1, func.2⟩
      · exact ⟨Nat.le_refl _, Nat.add_le_add_right argSizeLe 2, counts.parts member argSizeLe,
          arg.1, arg.2⟩
  | foreign leafSize => exact absurd ranked.inClass Term.not_inClass_foreign

end Ready

theorem ready_of_closed {table : CountTable} (sound : table.Sound) (closed : table.Closed) :
    Ready (· = table) fun bound size => ⟨bound, size⟩ ∈ table where
  answers {bound size} member := by
    rintro _ rfl
    obtain ⟨value, found⟩ := mem_iff_exists_get?.mp member
    rw [on_count_of_some found]
    exact ⟨congrArg Except.ok (sound found).1, rfl⟩
  bodies member := closed.bodies member
  parts member partLe := closed.parts member partLe

end Counting

namespace Call

variable {table : CountTable}
  (counts : Ready (· = table) fun bound size => ⟨bound, size⟩ ∈ table)

include counts

theorem IsSafe.of_makes {call callee : Call} (isSafe : call.IsSafe table)
    (makes : call.Makes table callee) : callee.IsSafe table := by
  obtain ⟨choice, found, isCallee⟩ := makes
  obtain ⟨other, chosen, _, callees⟩ := counts.exists_choose isSafe
  rw [chosen] at found
  cases found
  exact (callees callee isCallee).2.2

/-- Safe calls lead to safe calls alone. -/
theorem IsSafe.of_reaches {root call : Call} (isSafe : root.IsSafe table)
    (reaches : ReflTransGen (Makes table) root call) : call.IsSafe table := by
  induction reaches with
  | refl => exact isSafe
  | tail _ makes inductionHypothesis => exact inductionHypothesis.of_makes counts makes

theorem IsSafe.exists_unrank {call : Call} (isSafe : call.IsSafe table) :
    ∃ term, call.unrank.on table = (.ok term, table) := by
  obtain ⟨term, ranked⟩ := exists_hasRank_of_le isSafe.one_le isSafe.rank_le
  have answers := counts.unrankFrom_answers isSafe.counted ranked table rfl
  exact ⟨term, Prod.ext answers.1 answers.2⟩

end Call

/-- Whatever a table has been used for, unranking in a class that it has ends, and so do all the
calls that unranking makes of itself. None of them asks for a count at a size below zero, which
would be an error, or divides by zero. Where it scans for the size of the function, it stops
within the sizes, and the calls that it makes are for ranks of smaller classes that the table
has, under no smaller bound. -/
theorem unranking_safe (type : IntType) (operations : List Operation) {root call : Call} :
    let table := ((Bench.fresh type).run operations).table
    root.IsSafe table → ReflTransGen (Call.Makes table) root call →
      (∃ term, call.unrank.on table = (.ok term, table)) ∧
      ∃ choice : Choice call.size, call.choose.on table = (.ok choice, table) ∧
        call.unrank.on table =
          (choice.term <$> (choice.calls call.bound).mapM Call.unrank).on table ∧
        choice.IsPlaced call.bound call.rank ∧
        ∀ callee ∈ choice.calls call.bound,
          call.bound ≤ callee.bound ∧ callee.size + 2 ≤ call.size ∧ callee.IsSafe table := by
  intro table rootSafe reaches
  have counts : Ready (· = table) fun bound size => ⟨bound, size⟩ ∈ table :=
    ready_of_closed (Bench.soundFrom_run_fresh type operations).sound
      (Bench.closedFrom_run_fresh type operations).closed
  have isSafe := rootSafe.of_reaches counts reaches
  obtain ⟨choice, chosen, isPlaced, callees⟩ := counts.exists_choose isSafe
  refine ⟨isSafe.exists_unrank counts, choice, chosen, ?_, isPlaced, callees⟩
  rw [Call.unrank_eq, on_bind_of_ok (congrArg Prod.fst chosen), chosen, ← bind_pure_comp]

/-- On a table of eight bits on which a count has overflowed and a class has been looked up, the
second of the closed terms of size 8 is found. -/
theorem unranking_safe_after_overflow :
    let table := ((Bench.fresh (.signed .w8)).run
      ([.lookup 0 9, .ask (.count (.int 0) (.int 17))] ++
        [.openSequence (.int (0 : Nat)) (.int (8 : Nat))])).table
    let root : Call := ⟨0, 8, 2⟩
    root.IsSafe table ∧ ReflTransGen (Call.Makes table) root root ∧
      ∃ term, root.unrank.on table = (.ok term, table) := by
  intro table root
  have isSafe : root.IsSafe table :=
    ⟨Bench.mem_run_fresh _ _ (IntType.fits_closed_eight _), by decide, classSize_closed_eight.ge⟩
  exact ⟨isSafe, .refl, (unranking_safe (.signed .w8) _ isSafe .refl).1⟩

end BinaryLambda
