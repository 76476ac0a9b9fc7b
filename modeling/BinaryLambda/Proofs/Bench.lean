import BinaryLambda.Proofs.Table.Counts
import BinaryLambda.Proofs.Table.Operations

/-!
A table at work.

A bench is a table with the sequences that have been opened on it and the cursors that
walk through these. It takes operations one after the other. An operation that fails
opens nothing, but what it stored in the table before stays there. A cursor is a value:
moving it adds the cursor behind it to those that are open. An operation on a sequence
or a cursor that is not there does nothing.

Whatever the operations are, the table stays sound and keeps its entries
(`Bench.soundFrom_run`), and the table has the count of every open sequence
(`Bench.hasSequences_run`).
-/

namespace BinaryLambda

/-- What is open on a table. -/
structure Handles where
  sequences : List TermSequence
  cursors : List Cursor

inductive Operation where
  | ask (query : Query)
  /-- The count of a class by the recurrence alone, without filling its region. -/
  | lookup (bound size : Int)
  | openSequence (bound size : Literal)
  | askSequence (place : Nat) (query : SequenceQuery)
  | openCursor (place : Nat) (direction : Direction)
  | advance (place times : Nat)

namespace Handles

def perform (handles : Handles) : Operation → Counting (Answer × Handles)
  | .ask query => return (← query.answer, handles)
  | .lookup bound size => return (.number (← Counting.lookup bound size), handles)
  | .openSequence bound size => do
      let sequence ← Counting.withClass bound size Counting.sequence
      return (.sequence sequence, { handles with sequences := handles.sequences ++ [sequence] })
  | .askSequence place query =>
      match handles.sequences[place]? with
      | none => return (.nothing, handles)
      | some sequence => return (← query.answer sequence, handles)
  | .openCursor place direction =>
      match handles.sequences[place]? with
      | none => return (.nothing, handles)
      | some sequence =>
          return (.nothing, { handles with
            cursors := handles.cursors ++ [sequence.cursor direction] })
  | .advance place times =>
      match handles.cursors[place]? with
      | none => return (.nothing, handles)
      | some cursor => do
          let delivery ← cursor.advance times
          return (.delivered delivery.terms delivery.exhausted,
            { handles with cursors := handles.cursors ++ [delivery.cursor] })

end Handles

structure Bench where
  table : CountTable
  handles : Handles

namespace Bench

def fresh (type : IntType) : Bench := ⟨.fresh type, ⟨[], []⟩⟩

def take (bench : Bench) (operation : Operation) : Except Error Answer × Bench :=
  match (bench.handles.perform operation).on bench.table with
  | (.ok (answer, handles), table) => (.ok answer, ⟨table, handles⟩)
  | (.error error, table) => (.error error, ⟨table, bench.handles⟩)

def after (bench : Bench) (operation : Operation) : Bench := (bench.take operation).2

def run (bench : Bench) (operations : List Operation) : Bench := operations.foldl after bench

theorem table_after (bench : Bench) (operation : Operation) :
    (bench.after operation).table = ((bench.handles.perform operation).on bench.table).2 := by
  rw [after, take]
  rcases (bench.handles.perform operation).on bench.table with ⟨error | _, table⟩
  · rfl
  · rfl

theorem handles_after_of_perform_eq_ok {bench : Bench} {operation : Operation} {answer : Answer}
    {handles : Handles}
    (performed : ((bench.handles.perform operation).on bench.table).1 = .ok (answer, handles)) :
    (bench.after operation).handles = handles := by
  rw [after, take]
  rcases ran : (bench.handles.perform operation).on bench.table with ⟨error | result, table⟩
  · rw [ran] at performed
    cases performed
  · rw [ran] at performed
    cases performed
    rfl

theorem run_append (bench : Bench) (first second : List Operation) :
    bench.run (first ++ second) = (bench.run first).run second :=
  List.foldl_append ..

end Bench

namespace Counting

variable {α : Type} {related : CountTable → CountTable → Prop} {excused : Error → Prop}

theorem Uniform.respects_perform (uniform : Uniform related excused)
    (intType_eq : ∀ first second, related first second → first.intType = second.intType)
    (handles : Handles) {operation : Operation}
    (lookups : ∀ bound size, operation = .lookup bound size →
      Respects related excused (lookup bound size)) :
    Respects related excused (handles.perform operation) := by
  cases operation with
  | ask query => exact (uniform.respects_answer query fun _ => intType_eq).bind fun _ => .pure _
  | lookup bound size => exact (lookups bound size rfl).bind fun _ => .pure _
  | openSequence bound size =>
      refine (Respects.withClass _ _ fun bound size => ?_).bind fun _ => .pure _
      exact uniform.respects_sequence bound size
  | askSequence place query =>
      rw [Handles.perform]
      split
      · exact .pure _
      · next sequence _ =>
          exact (uniform.respects_sequenceAnswer sequence query).bind fun _ => .pure _
  | openCursor place direction =>
      rw [Handles.perform]
      split
      · exact .pure _
      · exact .pure _
  | advance place times =>
      rw [Handles.perform]
      split
      · exact .pure _
      · next cursor _ => exact (uniform.respects_advance cursor times).bind fun _ => .pure _

open CountTable

structure SoundPair (start other first second : CountTable) : Prop where
  same : start.intType = other.intType
  left : SoundFrom start first
  right : SoundFrom other second

theorem SoundPair.intType_eq {start other first second : CountTable}
    (pair : SoundPair start other first second) : first.intType = second.intType :=
  calc first.intType = start.intType := (intType_eq_of_le pair.left.le).symm
    _ = other.intType := pair.same
    _ = second.intType := intType_eq_of_le pair.right.le

theorem respects_soundPair {start other : CountTable} {computation : Counting α}
    (answer : IntType → Except Error α)
    (answers : ∀ start, Answers (SoundFrom start) computation (answer start.intType)) :
    Respects (SoundPair start other) (fun _ => False) computation := by
  intro first second pair
  obtain ⟨leftAnswered, left⟩ := answers start first pair.left
  obtain ⟨rightAnswered, right⟩ := answers other second pair.right
  rw [leftAnswered, rightAnswered, pair.same]
  exact .inr ⟨rfl, pair.same, left, right⟩

theorem lookup_respects_soundPair {start other : CountTable} (bound size : Int) :
    Respects (SoundPair start other) (fun _ => False) (lookup bound size) :=
  respects_soundPair (checkedClassSize · bound size) fun _ => lookup_answers bound size

theorem respects_of_kept {kept : CountTable → Prop} {computation : Counting α}
    (keeps : ∀ table, kept table → kept (computation.on table).2) :
    Respects (fun first second => first = second ∧ kept first) (fun _ => False) computation := by
  rintro first second ⟨rfl, isKept⟩
  exact .inr ⟨rfl, rfl, keeps first isKept⟩

theorem uniform_of_kept {kept : CountTable → Prop}
    (counts : ∀ bound size table, kept table → kept ((count bound size).on table).2) :
    Uniform (fun first second => first = second ∧ kept first) (fun _ => False) where
  count bound size := respects_of_kept (counts bound size)
  uncaught _ := False.elim

theorem uniform_soundPair (start other : CountTable) :
    Uniform (SoundPair start other) (fun _ => False) where
  count bound size :=
    respects_soundPair (checkedCount · bound size) fun _ => count_answers bound size
  uncaught _ := False.elim

end Counting

namespace Bench

open CountTable Counting

section Kept

variable {kept : CountTable → Prop}
  (counts : ∀ bound size table, kept table → kept ((count bound size).on table).2)

include counts

theorem kept_after {bench : Bench} {operation : Operation}
    (lookups : ∀ bound size, operation = .lookup bound size →
      ∀ table, kept table → kept ((lookup bound size).on table).2)
    (isKept : kept bench.table) : kept (bench.after operation).table := by
  have respects := (uniform_of_kept counts).respects_perform
    (fun first second same => congrArg CountTable.intType same.1) bench.handles
    (fun bound size same => respects_of_kept (lookups bound size same))
  rw [table_after]
  exact (respects.same ⟨rfl, isKept⟩).2.2

theorem kept_run {bench : Bench} {operations : List Operation}
    (lookups : ∀ bound size, .lookup bound size ∈ operations →
      ∀ table, kept table → kept ((lookup bound size).on table).2)
    (isKept : kept bench.table) : kept (bench.run operations).table := by
  induction operations generalizing bench with
  | nil => exact isKept
  | cons operation operations inductionHypothesis =>
      apply inductionHypothesis
      · exact fun bound size member => lookups bound size (List.mem_cons_of_mem operation member)
      · apply kept_after counts _ isKept
        rintro bound size rfl
        exact lookups bound size List.mem_cons_self

end Kept

theorem soundFrom_after {bench : Bench} (sound : bench.table.Sound) (operation : Operation) :
    SoundFrom bench.table (bench.after operation).table :=
  kept_after (fun bound size table from_ => (count_answers bound size table from_).2)
    (fun bound size _ table from_ => (lookup_answers bound size table from_).2) sound.soundFrom

theorem soundFrom_run {bench : Bench} (sound : bench.table.Sound) (operations : List Operation) :
    SoundFrom bench.table (bench.run operations).table :=
  kept_run (fun bound size table from_ => (count_answers bound size table from_).2)
    (fun bound size _ table from_ => (lookup_answers bound size table from_).2) sound.soundFrom

theorem soundFrom_run_fresh (type : IntType) (operations : List Operation) :
    SoundFrom (.fresh type) ((fresh type).run operations).table :=
  @soundFrom_run (fresh type) (sound_fresh type) operations

theorem intType_run_fresh (type : IntType) (operations : List Operation) :
    ((fresh type).run operations).table.intType = type :=
  (intType_eq_of_le (soundFrom_run_fresh type operations).le).symm

/-- The count of every open sequence is in the table. -/
def HasSequences (bench : Bench) : Prop :=
  ∀ sequence ∈ bench.handles.sequences,
    bench.table.get? ⟨sequence.bound, sequence.size⟩ = some sequence.length

/-- Operations open sequences and cursors and close none. -/
theorem handles_of_perform_eq_ok {handles after : Handles} {operation : Operation}
    {table : CountTable} {answer : Answer}
    (performed : ((handles.perform operation).on table).1 = .ok (answer, after)) :
    ∃ sequences cursors,
      after = ⟨handles.sequences ++ sequences, handles.cursors ++ cursors⟩ ∧
      ∀ sequence ∈ sequences, ∃ bound size, operation = .openSequence bound size ∧
        ((withClass bound size Counting.sequence).on table).1 = .ok sequence := by
  have unchanged : handles = ⟨handles.sequences ++ [], handles.cursors ++ []⟩ := by simp
  cases operation with
  | ask query =>
      obtain ⟨value, _, ⟨⟩⟩ := on_bind_pure_eq_ok performed
      exact ⟨[], [], unchanged, by simp⟩
  | lookup bound size =>
      obtain ⟨value, _, ⟨⟩⟩ := on_bind_pure_eq_ok performed
      exact ⟨[], [], unchanged, by simp⟩
  | openSequence bound size =>
      obtain ⟨sequence, opened, ⟨⟩⟩ := on_bind_pure_eq_ok performed
      refine ⟨[sequence], [], by simp, fun other member => ?_⟩
      rw [List.mem_singleton.mp member]
      exact ⟨bound, size, rfl, opened⟩
  | askSequence place query =>
      rw [Handles.perform] at performed
      split at performed
      · cases performed
        exact ⟨[], [], unchanged, by simp⟩
      · obtain ⟨value, _, ⟨⟩⟩ := on_bind_pure_eq_ok performed
        exact ⟨[], [], unchanged, by simp⟩
  | openCursor place direction =>
      rw [Handles.perform] at performed
      split at performed
      · cases performed
        exact ⟨[], [], unchanged, by simp⟩
      · next sequence _ =>
          cases performed
          exact ⟨[], [sequence.cursor direction], by simp, by simp⟩
  | advance place times =>
      rw [Handles.perform] at performed
      split at performed
      · cases performed
        exact ⟨[], [], unchanged, by simp⟩
      · obtain ⟨delivery, _, ⟨⟩⟩ := on_bind_pure_eq_ok performed
        exact ⟨[], [delivery.cursor], by simp, by simp⟩

/-- What is open after an operation was open before it or is opened by it. -/
theorem handles_after (bench : Bench) (operation : Operation) :
    ∃ sequences cursors, (bench.after operation).handles =
        ⟨bench.handles.sequences ++ sequences, bench.handles.cursors ++ cursors⟩ ∧
      ∀ sequence ∈ sequences, ∃ bound size, operation = .openSequence bound size ∧
        ((withClass bound size Counting.sequence).on bench.table).1 = .ok sequence := by
  rw [after, take]
  rcases ran : (bench.handles.perform operation).on bench.table with
    ⟨error | ⟨answer, handles⟩, table⟩
  · exact ⟨[], [], by simp, by simp⟩
  · exact handles_of_perform_eq_ok (congrArg Prod.fst ran)

theorem handles_run (bench : Bench) (operations : List Operation) :
    ∃ sequences cursors, (bench.run operations).handles =
      ⟨bench.handles.sequences ++ sequences, bench.handles.cursors ++ cursors⟩ := by
  induction operations generalizing bench with
  | nil => exact ⟨[], [], by simp [run]⟩
  | cons operation operations inductionHypothesis =>
      obtain ⟨sequences, cursors, after_eq, _⟩ := handles_after bench operation
      obtain ⟨moreSequences, moreCursors, run_eq⟩ := inductionHypothesis (bench.after operation)
      rw [after_eq, List.append_assoc, List.append_assoc] at run_eq
      exact ⟨_, _, run_eq⟩

theorem mem_sequences_after_openSequence {bench : Bench} (sound : bench.table.Sound)
    {bound size : Nat} (fits : bench.table.intType.Fits (classSize bound size)) :
    ⟨bound, size, classSize bound size⟩ ∈
      (bench.after (.openSequence (.int bound) (.int size))).handles.sequences := by
  have counted := (count_answers bound size bench.table sound.soundFrom).1
  rw [checkedCount_eq_ok_iff.mpr ⟨rfl, fits⟩] at counted
  have performed : ((bench.handles.perform (.openSequence (.int bound) (.int size))).on
      bench.table).1 = .ok (.sequence ⟨bound, size, classSize bound size⟩,
        { bench.handles with
          sequences := bench.handles.sequences ++ [⟨bound, size, classSize bound size⟩] }) := by
    rw [Handles.perform, withClass_ofNat, Counting.sequence, bind_assoc, on_bind_of_ok counted]
    rfl
  rw [handles_after_of_perform_eq_ok performed]
  simp

theorem get?_of_sequence_eq_ok {table : CountTable} (sound : table.Sound) {bound size : Nat}
    {sequence : TermSequence}
    (opened : ((Counting.sequence bound size).on table).1 = .ok sequence) :
    ((Counting.sequence bound size).on table).2.get? ⟨sequence.bound, sequence.size⟩ =
      some sequence.length := by
  obtain ⟨length, counted, rfl⟩ := on_bind_pure_eq_ok opened
  rw [Counting.sequence, on_bind_of_ok counted, on_pure]
  exact get?_of_count_eq_ok sound counted

theorem get?_of_openSequence_eq_ok {table : CountTable} (sound : table.Sound)
    {bound size : Literal} {sequence : TermSequence}
    (opened : ((withClass bound size Counting.sequence).on table).1 = .ok sequence) :
    ((withClass bound size Counting.sequence).on table).2.get? ⟨sequence.bound, sequence.size⟩ =
      some sequence.length := by
  obtain ⟨boundValue, _, ran⟩ := on_bind_eq_ok opened
  rw [withClass, ran, on_reading] at opened ⊢
  obtain ⟨sizeValue, _, ran⟩ := on_bind_eq_ok opened
  rw [ran, on_reading] at opened ⊢
  exact get?_of_sequence_eq_ok sound opened

theorem hasSequences_after {bench : Bench} (sound : bench.table.Sound)
    (hasSequences : bench.HasSequences) (operation : Operation) :
    (bench.after operation).HasSequences := by
  intro sequence member
  obtain ⟨opened, _, handles_eq, openedBy⟩ := handles_after bench operation
  rw [handles_eq] at member
  rcases List.mem_append.mp member with old | new
  · exact get?_of_le (soundFrom_after sound operation).le (hasSequences sequence old)
  · obtain ⟨bound, size, rfl, answered⟩ := openedBy sequence new
    rw [table_after, Handles.perform, on_bind_of_ok answered]
    exact get?_of_openSequence_eq_ok sound answered

theorem hasSequences_run {bench : Bench} (sound : bench.table.Sound)
    (hasSequences : bench.HasSequences) (operations : List Operation) :
    (bench.run operations).HasSequences := by
  induction operations generalizing bench with
  | nil => exact hasSequences
  | cons operation operations inductionHypothesis =>
      have first := (soundFrom_after sound operation).sound
      exact inductionHypothesis first (hasSequences_after sound hasSequences operation)

theorem hasSequences_run_fresh (type : IntType) (operations : List Operation) :
    ((fresh type).run operations).HasSequences :=
  @hasSequences_run (fresh type) (sound_fresh type) (by simp [HasSequences, fresh]) operations

theorem count_run_fresh (type : IntType) (operations : List Operation) {bound size : Nat}
    (fits : type.Fits (classSize bound size)) :
    ((count bound size).on ((fresh type).run operations).table).1 = .ok (classSize bound size) := by
  rw [(count_answers bound size _ (soundFrom_run_fresh type operations)).1]
  exact checkedCount_eq_ok_iff.mpr ⟨rfl, fits⟩

theorem mem_sequences_run_fresh (type : IntType) (operations : List Operation) {bound size : Nat}
    (fits : type.Fits (classSize bound size)) :
    ⟨bound, size, classSize bound size⟩ ∈ ((fresh type).run
      (operations ++ [.openSequence (.int bound) (.int size)])).handles.sequences := by
  rw [run_append]
  apply mem_sequences_after_openSequence (soundFrom_run_fresh type operations).sound
  rw [intType_run_fresh]
  exact fits

theorem mem_run_fresh (type : IntType) (operations : List Operation) {bound size : Nat}
    (fits : type.Fits (classSize bound size)) :
    ⟨bound, size⟩ ∈ ((fresh type).run
      (operations ++ [.openSequence (.int bound) (.int size)])).table :=
  mem_iff_exists_get?.mpr ⟨_, hasSequences_run_fresh type _ _
    (mem_sequences_run_fresh type operations fits)⟩

end Bench
end BinaryLambda
