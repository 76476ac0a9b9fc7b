import BinaryLambda.Proofs.Bench
import BinaryLambda.Proofs.Table.Quiet
import BinaryLambda.Proofs.Table.Warming

/-!
What is in a table does not depend on the order of the calls.

A call adds to a table what it adds to a fresh one, whatever is there already and whether
or not the call fails (`mem_answer_iff`). So after some calls a table has what these add,
each for itself, in any order and however often each of them is made. The numbers that a
generator picks add nothing (`table_answer_sample`).
-/

namespace BinaryLambda

open Counting CountTable

namespace CountTable

theorem size_eq_of_get?_eq {table other : CountTable}
    (get?_eq : ∀ key, table.get? key = other.get? key) : table.size = other.size :=
  (Std.TreeMap.Equiv.of_forall_constGet?_eq get?_eq).size_eq

theorem toFrame?_eq_of_get?_eq {table other : CountTable} (type_eq : table.intType = other.intType)
    (get?_eq : ∀ key, table.get? key = other.get? key) : table.toFrame? = other.toFrame? := by
  have same := (Std.TreeMap.Equiv.of_forall_constGet?_eq get?_eq).toList_eq
  simp only [toFrame?, same, type_eq]

structure Above (type : IntType) (base first second : CountTable) : Prop where
  left : Warmed type first
  right : Warmed type second
  mem_iff : ∀ key, key ∈ first ↔ key ∈ base ∨ key ∈ second

end CountTable

namespace Counting

theorem uniform_above (type : IntType) (base : CountTable) :
    Uniform (Above type base) (fun _ => False) where
  count bound size := by
    intro first second above
    have leftAnswered := (count_answers bound size first above.left.toSoundFrom).1
    have rightAnswered := (count_answers bound size second above.right.toSoundFrom).1
    refine .inr ⟨leftAnswered.trans rightAnswered.symm, warmed_count above.left bound size,
      warmed_count above.right bound size, fun key => ?_⟩
    rw [mem_count_iff_of_warmed above.left, mem_count_iff_of_warmed above.right, above.mem_iff,
      or_assoc]
  uncaught _ := False.elim

/-- A call adds to a table what it adds to a fresh one. -/
theorem mem_answer_iff {type : IntType} {table : CountTable} (isWarmed : Warmed type table)
    (query : Query) (key : Key) :
    key ∈ (query.answer.on table).2 ↔ key ∈ table ∨ key ∈ (query.answer.on (.fresh type)).2 := by
  have respects := (uniform_above type table).respects_answer query
    fun _ first second above =>
      (intType_eq_of_warmed above.left).trans (intType_eq_of_warmed above.right).symm
  have start : Above type table table (.fresh type) :=
    ⟨isWarmed, warmed_fresh type, fun key => by simp⟩
  exact (respects.same start).2.mem_iff key

theorem table_withClass_eq {α : Type} {table : CountTable} {first second : Nat → Nat → Counting α}
    (same : ∀ bound size, ((first bound size).on table).2 = ((second bound size).on table).2)
    (bound size : Literal) :
    ((withClass bound size first).on table).2 = ((withClass bound size second).on table).2 := by
  unfold withClass
  cases bound.natural "m" with
  | error error => rfl
  | ok bound =>
      cases size.natural "n" with
      | error error => rfl
      | ok size => exact same bound size

/-- Drawing from a class adds to a fresh table what counting the class does. -/
theorem table_sample (type : IntType) (generator : Generator) (bound size : Nat) :
    ((sample generator bound size).on (.fresh type)).2 =
      ((count bound size).on (.fresh type)).2 := by
  rw [sample_eq]
  apply table_bind_eq
  intro total counted
  have after := closedFrom_count (closedFrom_fresh type) bound size
  have member : ⟨bound, size⟩ ∈ ((count bound size).on (.fresh type)).2 :=
    mem_iff_exists_get?.mpr ⟨total, get?_of_count_eq_ok (sound_fresh type) counted⟩
  split
  · rfl
  · exact ((quiet_unrankFrom after.closed member _).bind fun term => .pure _).1

/-- What the generator picks makes no difference to the table. -/
theorem table_answer_sample (type : IntType) (bound size : Literal) (generator other : Generator) :
    ((Query.sample bound size generator).answer.on (.fresh type)).2 =
      ((Query.sample bound size other).answer.on (.fresh type)).2 := by
  apply table_withClass_eq
  intro bound size
  rw [table_bind_eq fun _ _ => rfl, table_bind_eq fun _ _ => rfl, table_sample, table_sample]

end Counting

/-- The queries are one call of one operation. What a generator picks is no part of a call. -/
def Query.SameCall : Query → Query → Prop
  | .sample bound size _, .sample otherBound otherSize _ => bound = otherBound ∧ size = otherSize
  | query, other => query = other

theorem Query.SameCall.table_eq {query other : Query} (same : query.SameCall other)
    (type : IntType) : (query.answer.on (.fresh type)).2 = (other.answer.on (.fresh type)).2 := by
  unfold Query.SameCall at same
  split at same
  · obtain ⟨rfl, rfl⟩ := same
    exact table_answer_sample type _ _ _ _
  · rw [same]

namespace Bench

/-- A table has what its calls add to fresh tables. -/
theorem mem_run_ask_iff {type : IntType} {bench : Bench} (isWarmed : Warmed type bench.table)
    (queries : List Query) (key : Key) :
    key ∈ (bench.run (queries.map .ask)).table ↔
      key ∈ bench.table ∨ ∃ query ∈ queries, key ∈ (query.answer.on (.fresh type)).2 := by
  induction queries generalizing bench with
  | nil => simp [run]
  | cons query queries inductionHypothesis =>
      have after : Warmed type (bench.after (.ask query)).table :=
        @kept_after (Warmed type) (fun bound size _ isWarmed => warmed_count isWarmed bound size)
          bench (.ask query) (fun _ _ different => by cases different) isWarmed
      have step : (bench.after (.ask query)).table = (query.answer.on bench.table).2 := by
        rw [table_after, Handles.perform, on_bind_pure]
      have rest := inductionHypothesis after
      rw [step, mem_answer_iff isWarmed, or_assoc] at rest
      simp only [List.mem_cons, exists_eq_or_imp]
      exact rest

end Bench

/-- Whatever the order of the calls and the number of times that each of them is made, a
table ends with the same entries, and so with the same frame. -/
theorem cache_order_independent (type : IntType) {first second : List Query}
    (covered : ∀ query ∈ first, ∃ other ∈ second, query.SameCall other)
    (covers : ∀ other ∈ second, ∃ query ∈ first, query.SameCall other) :
    let table := ((Bench.fresh type).run (first.map .ask)).table
    let other := ((Bench.fresh type).run (second.map .ask)).table
    (∀ key, table.get? key = other.get? key) ∧ table.size = other.size ∧
      table.toFrame? = other.toFrame? := by
  intro table other
  have get?_eq : ∀ key, table.get? key = other.get? key := by
    intro key
    have mem_iff : key ∈ table ↔ key ∈ other := by
      rw [@Bench.mem_run_ask_iff type (Bench.fresh type) (warmed_fresh type),
        @Bench.mem_run_ask_iff type (Bench.fresh type) (warmed_fresh type)]
      apply or_congr_right
      constructor
      · rintro ⟨query, member, added⟩
        obtain ⟨other, otherMember, same⟩ := covered query member
        exact ⟨other, otherMember, same.table_eq type ▸ added⟩
      · rintro ⟨other, member, added⟩
        obtain ⟨query, queryMember, same⟩ := covers other member
        exact ⟨query, queryMember, same.table_eq type ▸ added⟩
    rw [(Bench.soundFrom_run_fresh type _).sound.get?_eq,
      (Bench.soundFrom_run_fresh type _).sound.get?_eq]
    exact if_congr mem_iff rfl rfl
  have type_eq : table.intType = other.intType :=
    (Bench.intType_run_fresh type _).trans (Bench.intType_run_fresh type _).symm
  exact ⟨get?_eq, size_eq_of_get?_eq get?_eq, toFrame?_eq_of_get?_eq type_eq get?_eq⟩

/-- An overflow, a rank of an open term and a draw, and the same calls backwards with one of
them made twice and with another generator. -/
theorem cache_order_independent_overflow :
    let overflow := Query.count (.int 0) (.int 17)
    let openTerm := Query.rank (.int 0) (.app (.var 1) (.lam (.var 1)))
    let draw := fun number => Query.sample (.int 1) (.int 6) (Generator.cyclic number)
    let table := ((Bench.fresh (.signed .w8)).run
      ([overflow, openTerm, draw 0].map .ask)).table
    let other := ((Bench.fresh (.signed .w8)).run
      ([draw 1, openTerm, overflow, openTerm].map .ask)).table
    (∀ key, table.get? key = other.get? key) ∧ table.size = other.size ∧
      table.toFrame? = other.toFrame? := by
  intro overflow openTerm draw
  apply cache_order_independent
  · simp [draw, Query.SameCall]
  · simp [draw, Query.SameCall]

end BinaryLambda
