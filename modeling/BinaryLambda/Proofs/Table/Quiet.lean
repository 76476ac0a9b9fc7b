import BinaryLambda.Proofs.Table.Closure
import BinaryLambda.Proofs.Table.Operations
import BinaryLambda.Term.Code

/-!
Working in a class that has been counted.

In a closed table with a class are the classes that its terms are made of. Ranking and
unranking in the class ask for these counts alone, so they leave the table as it is and
never find a count that does not fit (`quiet_unrankFrom`, `quiet_rankFrom`). The rank
need not be one of the class, nor the term have a rank.
-/

namespace BinaryLambda
namespace Counting

open CountTable

variable {α β : Type}

/-- The computation leaves the table as it is, and no count is too large for it. -/
def Quiet (table : CountTable) (computation : Counting α) : Prop :=
  (computation.on table).2 = table ∧
    ∀ error, (computation.on table).1 = .error error → error.kind ≠ .numericOverflow

namespace Quiet

variable {table : CountTable}

theorem pure (value : α) : Quiet table (Pure.pure value) :=
  ⟨rfl, fun _ failed => by cases failed⟩

theorem throw {error : Error} (kind_ne : error.kind ≠ .numericOverflow) :
    Quiet table (MonadExcept.throw error : Counting α) :=
  ⟨rfl, fun _ failed => by cases failed; exact kind_ne⟩

theorem bind {computation : Counting α} {next : α → Counting β} (first : Quiet table computation)
    (rest : ∀ value, Quiet table (next value)) : Quiet table (computation >>= next) := by
  obtain ⟨unchanged, firstKind⟩ := first
  cases answered : (computation.on table).1 with
  | error error =>
      rw [Quiet, on_bind_of_error answered]
      exact ⟨unchanged, fun _ failed => by cases failed; exact firstKind error answered⟩
  | ok value =>
      rw [Quiet, on_bind_of_ok answered, unchanged]
      exact rest value

theorem tryCatch {computation : Counting α} {handle : Error → Counting α}
    (first : Quiet table computation)
    (handled : ∀ error, error.kind ≠ .numericOverflow → Quiet table (handle error)) :
    Quiet table (tryCatch computation handle) := by
  obtain ⟨unchanged, firstKind⟩ := first
  cases answered : (computation.on table).1 with
  | error error =>
      rw [Quiet, on_tryCatch_of_error answered, unchanged]
      exact handled error (firstKind error answered)
  | ok value =>
      rw [Quiet, on_tryCatch_of_ok answered]
      exact ⟨unchanged, fun _ failed => by cases failed⟩

theorem foldlM {values : List α} {step : β → α → Counting β} {start : β}
    (each : ∀ total, ∀ value ∈ values, Quiet table (step total value)) :
    Quiet table (values.foldlM step start) := by
  induction values generalizing start with
  | nil => exact pure start
  | cons value values inductionHypothesis =>
      rw [List.foldlM_cons]
      apply bind (each start value List.mem_cons_self)
      intro total
      exact inductionHypothesis fun total other member =>
        each total other (List.mem_cons_of_mem value member)

theorem mapM {values : List α} {computation : α → Counting β}
    (each : ∀ value, Quiet table (computation value)) :
    Quiet table (values.mapM computation) := by
  rw [← List.mapM'_eq_mapM]
  induction values with
  | nil => exact pure []
  | cons value values inductionHypothesis =>
      apply bind (each value)
      exact fun result => bind inductionHypothesis fun results => pure _

theorem reading {result : Except Error α}
    (kind_ne : ∀ error, result = .error error → error.kind ≠ .numericOverflow) :
    Quiet table (reading result) := by
  cases result with
  | ok value => exact pure value
  | error error => exact throw (kind_ne error rfl)

end Quiet

theorem quiet_count {table : CountTable} {bound size : Nat} (member : ⟨bound, size⟩ ∈ table) :
    Quiet table (count bound size) := by
  obtain ⟨value, found⟩ := mem_iff_exists_get?.mp member
  rw [Quiet, on_count_of_some found]
  exact ⟨rfl, fun _ failed => by cases failed⟩

theorem quiet_countAt {table : CountTable} {bound size : Nat} {given : Int}
    (given_eq : given = size) (member : ⟨bound, size⟩ ∈ table) :
    Quiet table (countAt bound given) := by
  rw [given_eq, countAt_natCast]
  exact quiet_count member

section Unranking

variable {table : CountTable}

theorem quiet_slotFrom {bound size : Nat} (parts : ∀ part ≤ size, ⟨bound, part⟩ ∈ table)
    (funcSize argSize rank : Nat) (size_eq : funcSize + argSize = size) :
    Quiet table (slotFrom bound funcSize argSize rank size_eq) := by
  induction argSize generalizing funcSize rank with
  | zero =>
      rw [slotFrom]
      apply (quiet_count (parts 0 (Nat.zero_le _))).bind
      intro args
      apply (quiet_count (parts funcSize (by omega))).bind
      intro funcs
      split
      · exact .pure _
      · exact .throw (by decide)
  | succ smaller inductionHypothesis =>
      rw [slotFrom]
      apply (quiet_count (parts (smaller + 1) (by omega))).bind
      intro args
      apply (quiet_count (parts funcSize (by omega))).bind
      intro funcs
      split
      · exact .pure _
      · exact inductionHypothesis _ _ _

theorem quiet_isVariableRank {bound size : Nat} (member : ⟨bound, size⟩ ∈ table) (rank : Nat) :
    Quiet table (isVariableRank bound size rank) := by
  unfold isVariableRank
  split
  · exact (quiet_count member).bind fun total => .pure _
  · exact .pure _

variable (closed : table.Closed)

include closed

theorem quiet_choose {bound size : Nat} (member : ⟨bound, size⟩ ∈ table) (rank : Nat) :
    Quiet table (choose bound size rank) := by
  unfold choose
  apply (quiet_isVariableRank member rank).bind
  intro isVariable
  split
  · exact .pure _
  · split
    · next body =>
        apply (quiet_count (closed.bodies member)).bind
        intro abstractions
        split
        · exact .pure _
        · exact (quiet_slotFrom (fun part partLe => closed.parts member partLe) _ _ _ _).bind
            fun slot => .pure _
    · exact .throw (by simp [Error.kind])

/-- Unranking asks for no class that is not there, whatever the rank is. -/
theorem quiet_unrankFrom {bound size : Nat} (member : ⟨bound, size⟩ ∈ table) (rank : Nat) :
    Quiet table (unrankFrom bound size rank) := by
  induction size using Nat.strongRecOn generalizing bound rank with
  | ind size inductionHypothesis =>
      rw [unrankFrom]
      apply (quiet_choose closed member rank).bind
      intro choice
      cases choice with
      | «variable» => exact .pure _
      | abstraction rank =>
          exact (inductionHypothesis _ (by omega) (closed.bodies member) _).bind fun body => .pure _
      | application slot =>
          have size_eq := slot.size_eq
          have func : ⟨bound, slot.funcSize⟩ ∈ table := closed.parts member (by omega)
          have arg : ⟨bound, slot.argSize⟩ ∈ table := closed.parts member (by omega)
          apply (inductionHypothesis _ (by omega) func _).bind
          exact fun func => (inductionHypothesis _ (by omega) arg _).bind fun arg => .pure _

theorem quiet_unrank {bound size : Nat} (member : ⟨bound, size⟩ ∈ table) (rank : Nat) :
    Quiet table (unrank bound size rank) := by
  unfold unrank
  split
  · exact .throw (by decide)
  · apply (quiet_count member).bind
    intro total
    split
    · exact .throw (by simp [Error.kind])
    · exact quiet_unrankFrom closed member rank

theorem quiet_sample {bound size : Nat} (member : ⟨bound, size⟩ ∈ table) (generator : Generator) :
    Quiet table (sample generator bound size) := by
  rw [sample_eq]
  apply (quiet_count member).bind
  intro total
  split
  · exact .throw (by simp [Error.kind])
  · exact (quiet_unrankFrom closed member _).bind fun term => .pure _

end Unranking

section Ranking

variable {table : CountTable} (closed : table.Closed)

theorem quiet_smallerFunctions {bound size funcSize : Nat} {parts : Int} (parts_eq : parts = size)
    (funcSizeLe : funcSize ≤ size) (members : ∀ part ≤ size, ⟨bound, part⟩ ∈ table) :
    Quiet table (smallerFunctions bound funcSize parts) := by
  apply Quiet.foldlM
  intro total smaller member
  have smallerLt : smaller < funcSize := List.mem_range.mp member
  apply (quiet_count (members smaller (by omega))).bind
  intro funcs
  have args_eq : parts - smaller = (size - smaller : Nat) := by omega
  apply (quiet_countAt args_eq (members _ (Nat.sub_le _ _))).bind
  exact fun args => .pure _

include closed

/-- Ranking asks for no class that is not there, whatever the leaves of the term are, as
long as none has a size below zero. -/
theorem quiet_rankFrom {bound size : Nat} {term : Term} (room : term.HasRoom)
    (size_eq : term.size = size) (member : ⟨bound, size⟩ ∈ table) :
    Quiet table (rankFrom bound term) := by
  induction term generalizing bound size with
  | var index =>
      obtain rfl : size = index + 1 := by
        rw [Term.size_var] at size_eq
        omega
      unfold rankFrom
      split
      · exact .throw (by decide)
      · exact quiet_count member
  | lam body inductionHypothesis =>
      have bodyNonneg := @Term.HasRoom.size_nonneg body room
      obtain ⟨bodySize, rfl⟩ : ∃ bodySize, size = bodySize + 2 :=
        ⟨body.size.toNat, by rw [Term.size_lam] at size_eq; omega⟩
      apply inductionHypothesis room _ (closed.bodies member)
      rw [Term.size_lam] at size_eq
      omega
  | app func arg funcHypothesis argHypothesis =>
      obtain ⟨funcSize, func_eq⟩ := Int.eq_ofNat_of_zero_le room.1.size_nonneg
      obtain ⟨argSize, arg_eq⟩ := Int.eq_ofNat_of_zero_le room.2.size_nonneg
      obtain rfl : size = funcSize + argSize + 2 := by
        rw [Term.size_app] at size_eq
        omega
      have parts : ∀ part ≤ funcSize + argSize, ⟨bound, part⟩ ∈ table :=
        fun part partLe => closed.parts member partLe
      have parts_eq : func.size + arg.size = (funcSize + argSize : Nat) := by omega
      rw [rankFrom, parts_eq, func_eq, Int.toNat_natCast]
      apply (quiet_countAt rfl (closed.bodies member)).bind
      intro abstractions
      apply (quiet_smallerFunctions rfl (Nat.le_add_right _ _) parts).bind
      intro smaller
      apply (quiet_countAt arg_eq (parts argSize (Nat.le_add_left _ _))).bind
      intro args
      apply (funcHypothesis room.1 func_eq (parts funcSize (Nat.le_add_right _ _))).bind
      intro funcRank
      apply (argHypothesis room.2 arg_eq (parts argSize (Nat.le_add_left _ _))).bind
      exact fun argRank => .pure _
  | foreign leafSize => exact .throw (by simp [Error.kind])

theorem quiet_rank {bound size : Nat} {term : Term} (room : term.HasRoom)
    (size_eq : term.size = size) (member : ⟨bound, size⟩ ∈ table) :
    Quiet table (rank bound term) := by
  unfold rank
  split
  · exact quiet_rankFrom closed room size_eq member
  · exact .throw (by simp [Error.kind])

end Ranking

section Sequences

variable {table : CountTable} {sequence : TermSequence} (closed : table.Closed)
  (member : ⟨sequence.bound, sequence.size⟩ ∈ table)

include closed member

theorem quiet_get (rank : Int) : Quiet table (sequence.get rank) := by
  unfold TermSequence.get
  split
  · exact quiet_unrankFrom closed member _
  · exact .throw (by simp [Error.kind])

theorem quiet_index {term : Term} (room : term.size = sequence.size → term.HasRoom) :
    Quiet table (sequence.index term) := by
  unfold TermSequence.index
  split
  · next size_eq => exact quiet_rank closed (room size_eq) size_eq member
  · exact .throw (by simp [Error.kind])

theorem quiet_contains {term : Term} (room : term.size = sequence.size → term.HasRoom) :
    Quiet table (sequence.contains term) := by
  unfold TermSequence.contains
  split
  · next size_eq =>
      apply Quiet.tryCatch
      · exact (quiet_rank closed (room size_eq) size_eq member).bind fun _ => .pure true
      · intro error kind_ne
        split
        · exact .pure false
        · exact .throw kind_ne
  · exact .pure false

theorem quiet_terms (direction : Direction) : Quiet table (sequence.terms direction) := by
  have walk : Quiet table ((sequence.ranks direction).mapM sequence.term) :=
    Quiet.mapM fun rank => quiet_unrankFrom closed member rank
  cases direction with
  | forward =>
      unfold TermSequence.terms TermSequence.listLength
      by_cases isList : sequence.length ≤ TermSequence.maxListLength
      · rw [if_pos isList]
        exact walk
      · rw [if_neg isList]
        exact .throw (by decide)
  | backward => exact walk

theorem quiet_advance {cursor : Cursor} (sequence_eq : cursor.sequence = sequence) (times : Nat) :
    Quiet table (cursor.advance times) := by
  induction times generalizing cursor with
  | zero => exact .pure _
  | succ times inductionHypothesis =>
      unfold Cursor.advance
      split
      · exact .pure _
      · next rank _ =>
          have unranked := quiet_unrankFrom closed member rank
          rw [← sequence_eq] at unranked
          apply unranked.bind
          intro term
          have moved : cursor.moved.sequence = sequence := sequence_eq
          exact (inductionHypothesis moved).bind fun rest => .pure _

end Sequences

end Counting
end BinaryLambda
