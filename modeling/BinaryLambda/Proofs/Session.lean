import BinaryLambda.Proofs.Bench
import BinaryLambda.Session

/-!
Tables in sessions.

A session keeps several tables at work side by side. Each of them is in a state that a
bench of its own comes to (`Session.exists_bench`), so what holds of the table of every
bench holds of all tables of a session. Lookups are by integers here: a bound that is a
floating-point number is rounded as it rises, and what is counted then can be wrong.
-/

namespace BinaryLambda

def Step.IsIntegral : Step → Prop
  | .lookup _ bound size => (∃ value : Int, bound = .int value) ∧ ∃ value : Int, size = .int value
  | _ => True

namespace Session

open Counting CountTable

def run (session : Session) (steps : List Step) : Session :=
  steps.foldl (fun session step => (session.take step).1) session

theorem table_lookup_int (bound size : Int) (ledger : Ledger) :
    ((do return Answer.number (← Bookkeeping.lookup (.int bound) (.int size)) :
      Bookkeeping Answer).on ledger).2.table =
        ((Counting.lookup bound size).on ledger.table).2 := by
  have entered : ∀ {α : Type} (next : Ledger → Bookkeeping α),
      (get >>= next : Bookkeeping α).run ledger = (next ledger).run ledger := fun _ => rfl
  simp only [Bookkeeping.on, Bookkeeping.lookup, bind_assoc, entered]
  simp only [EStateM.run, bind, EStateM.bind, tryCatch, tryCatchThe, MonadExceptOf.tryCatch]
  delta EStateM.tryCatch
  simp only [Bookkeeping.lookupAt, Coordinate.ofScalar, Bookkeeping.counting]
  rcases (Counting.lookup bound size).on ledger.table with ⟨error | value, table⟩
  · rfl
  · rfl

theorem table_has (bound size : Literal) (ledger : Ledger) :
    ((do return Answer.flag (← Bookkeeping.has bound size) : Bookkeeping Answer).on
      ledger).2.table = ledger.table := by
  cases bound with
  | list bounds => rfl
  | scalar bound =>
      cases size with
      | list sizes => rfl
      | scalar size => rfl

section Entries

variable {α : Type}

def Holds (entries : List (String × Placed α)) (place : Nat) (values : List α) : Prop :=
  ∀ entry ∈ entries, entry.2.table = place → entry.2.value ∈ values

theorem Holds.append {new entries : List (String × Placed α)} {place : Nat} {values more : List α}
    (holds : Holds entries place values) (newHolds : Holds new place (values ++ more)) :
    Holds (new ++ entries) place (values ++ more) := by
  intro entry member belongs
  rcases List.mem_append.mp member with isNew | old
  · exact newHolds entry isNew belongs
  · exact List.mem_append_left more (holds entry old belongs)

theorem Holds.append_elsewhere {new entries : List (String × Placed α)} {place other : Nat}
    {values : List α} (holds : Holds entries place values)
    (there : ∀ entry ∈ new, entry.2.table = other) (ne : other ≠ place) :
    Holds (new ++ entries) place values := by
  intro entry member belongs
  rcases List.mem_append.mp member with isNew | old
  · exact absurd ((there entry isNew).symm.trans belongs) ne
  · exact holds entry old belongs

end Entries

/-- The bench has the table, and all that belongs to the table is open there. -/
structure Matches (session : Session) (place : Nat) (table : CountTable) (bench : Bench) :
    Prop where
  table_eq : bench.table = table
  sequences : Holds session.sequences place bench.handles.sequences
  cursors : Holds session.cursors place bench.handles.cursors

/-- Every table has a bench, and what belongs to a table belongs to one that is there. -/
structure Benched (session : Session) : Prop where
  sequences_lt : ∀ entry ∈ session.sequences, entry.2.table < session.tables.size
  cursors_lt : ∀ entry ∈ session.cursors, entry.2.table < session.tables.size
  exists_bench : ∀ {place : Nat} {ledger : Ledger}, session.tables[place]? = some ledger →
    ∃ type operations, session.Matches place ledger.table ((Bench.fresh type).run operations)

theorem benched_empty : empty.Benched where
  sequences_lt := by simp [empty]
  cursors_lt := by simp [empty]
  exists_bench found := by simp [empty] at found

namespace Benched

variable {session : Session} (benched : session.Benched)

include benched

/-- Work on one table, with what it opens there. -/
theorem work {place : Nat} {before after : Ledger} (found : session.tables[place]? = some before)
    {sequences : List (String × Placed TermSequence)} {cursors : List (String × Placed Cursor)}
    (newSequences : ∀ entry ∈ sequences, entry.2.table = place)
    (newCursors : ∀ entry ∈ cursors, entry.2.table = place)
    (worked : ∀ bench, session.Matches place before.table bench → ∃ operations,
      (bench.run operations).table = after.table ∧
      Holds sequences place (bench.run operations).handles.sequences ∧
      Holds cursors place (bench.run operations).handles.cursors) :
    Benched { session with
      tables := session.tables.setIfInBounds place after
      sequences := sequences ++ session.sequences
      cursors := cursors ++ session.cursors } := by
  have placeLt : place < session.tables.size := (Array.getElem?_eq_some_iff.mp found).1
  constructor
  · intro entry member
    rw [Array.size_setIfInBounds]
    rcases List.mem_append.mp member with isNew | old
    · rw [newSequences entry isNew]
      exact placeLt
    · exact benched.sequences_lt entry old
  · intro entry member
    rw [Array.size_setIfInBounds]
    rcases List.mem_append.mp member with isNew | old
    · rw [newCursors entry isNew]
      exact placeLt
    · exact benched.cursors_lt entry old
  · intro other ledger otherFound
    rw [Array.getElem?_setIfInBounds] at otherFound
    by_cases same : place = other
    · subst same
      rw [if_pos rfl, if_pos placeLt] at otherFound
      cases otherFound
      obtain ⟨type, operations, matched⟩ := benched.exists_bench found
      obtain ⟨more, table_eq, sequencesHold, cursorsHold⟩ := worked _ matched
      obtain ⟨_, _, handles_eq⟩ := Bench.handles_run ((Bench.fresh type).run operations) more
      rw [handles_eq] at sequencesHold cursorsHold
      refine ⟨type, operations ++ more, ?_, ?_, ?_⟩
      · rw [Bench.run_append]
        exact table_eq
      · rw [Bench.run_append, handles_eq]
        exact matched.sequences.append sequencesHold
      · rw [Bench.run_append, handles_eq]
        exact matched.cursors.append cursorsHold
    -- Nothing that is new is open on another table, so its bench is still right.
    · rw [if_neg same] at otherFound
      obtain ⟨type, operations, matched⟩ := benched.exists_bench otherFound
      exact ⟨type, operations, matched.table_eq,
        matched.sequences.append_elsewhere newSequences same,
        matched.cursors.append_elsewhere newCursors same⟩

/-- A table of its own, with the sequence that is opened on it. -/
theorem push {ledger : Ledger} {names : List (String × Nat)}
    {sequences : List (String × Placed TermSequence)}
    (newSequences : ∀ entry ∈ sequences, entry.2.table = session.tables.size)
    (made : ∃ type operations, ((Bench.fresh type).run operations).table = ledger.table ∧
      Holds sequences session.tables.size ((Bench.fresh type).run operations).handles.sequences) :
    Benched { session with
      tables := session.tables.push ledger
      tableNames := names
      sequences := sequences ++ session.sequences } := by
  constructor
  · intro entry member
    rw [Array.size_push]
    rcases List.mem_append.mp member with isNew | old
    · rw [newSequences entry isNew]
      exact Nat.lt_succ_self _
    · exact Nat.lt_succ_of_lt (benched.sequences_lt entry old)
  · intro entry member
    rw [Array.size_push]
    exact Nat.lt_succ_of_lt (benched.cursors_lt entry member)
  · intro place other found
    rw [Array.getElem?_push] at found
    split at found
    · next last =>
        subst last
        cases found
        obtain ⟨type, operations, table_eq, sequencesHold⟩ := made
        refine ⟨type, operations, table_eq, ?_, ?_⟩
        · intro entry member belongs
          rcases List.mem_append.mp member with isNew | old
          · exact sequencesHold entry isNew belongs
          · exact absurd belongs (Nat.ne_of_lt (benched.sequences_lt entry old))
        · intro entry member belongs
          exact absurd belongs (Nat.ne_of_lt (benched.cursors_lt entry member))
    · next earlier =>
        obtain ⟨type, operations, matched⟩ := benched.exists_bench found
        exact ⟨type, operations, matched.table_eq,
          matched.sequences.append_elsewhere newSequences (Ne.symm earlier), matched.cursors⟩

omit benched in
theorem onTable_of_some {α : Type} {computation : Counting α} {place : Nat} {before : Ledger}
    (found : session.tables[place]? = some before) :
    session.onTable place (.counting computation) =
      ({ session with
          tables := session.tables.setIfInBounds place
            { before with table := (computation.on before.table).2 } },
        some (computation.on before.table).1) := by
  simp only [Session.onTable, found, Bookkeeping.on_counting]

omit benched in
/-- A sequence on a table of its own is opened as on a fresh bench. -/
theorem exists_of_enumerate_eq_ok {bound size intType : Literal} {sequence : TermSequence}
    {table : CountTable} (made : Standalone.enumerate bound size intType = .ok (sequence, table)) :
    ∃ type, (withClass bound size Counting.sequence).on (.fresh type) = (.ok sequence, table) := by
  obtain ⟨type, _, made⟩ := bind_eq_ok_iff.mp made
  obtain ⟨boundValue, bound_eq, made⟩ := bind_eq_ok_iff.mp made
  obtain ⟨sizeValue, size_eq, made⟩ := bind_eq_ok_iff.mp made
  refine ⟨type, ?_⟩
  have opens : withClass bound size Counting.sequence = Counting.sequence boundValue sizeValue := by
    simp only [withClass, bound_eq, size_eq]
    rfl
  rw [opens]
  split at made
  · next ran =>
      cases made
      exact ran
  · cases made

/-- Work on one table that opens nothing. -/
theorem onTable {α : Type} {computation : Bookkeeping α} {place : Nat}
    (worked : ∀ (before : Ledger) (bench : Bench), session.Matches place before.table bench →
      ∃ operations, (bench.run operations).table = (computation.on before).2.table) :
    (session.onTable place computation).1.Benched := by
  unfold Session.onTable
  split
  · exact benched
  · next before found =>
      apply @work session benched place before (computation.on before).2 found [] [] (by simp)
        (by simp)
      intro bench matched
      obtain ⟨operations, table_eq⟩ := worked before bench matched
      exact ⟨operations, table_eq, by simp [Holds], by simp [Holds]⟩

theorem onTableNamed {computation : Bookkeeping Answer} {name : String}
    (worked : ∀ (before : Ledger) (bench : Bench), bench.table = before.table →
      ∃ operations, (bench.run operations).table = (computation.on before).2.table) :
    (session.onTableNamed name computation).1.Benched := by
  unfold Session.onTableNamed
  split
  · exact benched
  · exact benched.onTable fun before bench matched => worked before bench matched.table_eq

theorem onSequenceNamed {computation : TermSequence → Counting Answer} {name : String}
    (worked : ∀ (bench : Bench) (sequence : TermSequence), sequence ∈ bench.handles.sequences →
      ∃ operations, (bench.run operations).table = ((computation sequence).on bench.table).2) :
    (session.onSequenceNamed name computation).1.Benched := by
  unfold Session.onSequenceNamed
  split
  · exact benched
  · next sequence named =>
      obtain ⟨before, after, entries, _⟩ := List.lookup_eq_some_iff.mp named
      apply benched.onTable
      intro ledger bench matched
      rw [Bookkeeping.on_counting, ← matched.table_eq]
      apply worked
      exact matched.sequences (name, sequence) (by simp [entries]) rfl

/-- Work on one table by one operation, which opens something if it succeeds. -/
theorem perform {α : Type} {place : Nat} {before : Ledger}
    (found : session.tables[place]? = some before) {computation : Counting α}
    {sequences : α → List (String × Placed TermSequence)}
    {cursors : α → List (String × Placed Cursor)}
    (newSequences : ∀ value, ∀ entry ∈ sequences value, entry.2.table = place)
    (newCursors : ∀ value, ∀ entry ∈ cursors value, entry.2.table = place)
    (performed : ∀ bench, session.Matches place before.table bench →
      ∃ (operation : Operation) (next : α → Answer × Handles),
        bench.handles.perform operation = (do return next (← computation)) ∧
        ∀ value, Holds (sequences value) place (next value).2.sequences ∧
          Holds (cursors value) place (next value).2.cursors) :
    let tables := session.tables.setIfInBounds place
      { before with table := (computation.on before.table).2 }
    Benched { session with tables } ∧ ∀ value, (computation.on before.table).1 = .ok value →
      Benched { session with
        tables
        sequences := sequences value ++ session.sequences
        cursors := cursors value ++ session.cursors } := by
  have table_after : ∀ bench, session.Matches place before.table bench → ∀ operation,
      ∀ next : α → Answer × Handles,
        bench.handles.perform operation = (do return next (← computation)) →
          (bench.after operation).table = (computation.on before.table).2 := by
    intro bench matched operation next performs
    rw [bench.table_after, performs, on_bind_pure, matched.table_eq]
  intro tables
  constructor
  · apply @work session benched _ _ _ found [] [] (by simp) (by simp)
    intro bench matched
    obtain ⟨operation, next, performs, _⟩ := performed bench matched
    exact ⟨[operation], table_after bench matched operation next performs, by simp [Holds],
      by simp [Holds]⟩
  · intro value answered
    apply benched.work found (newSequences value) (newCursors value)
    intro bench matched
    obtain ⟨operation, next, performs, holds⟩ := performed bench matched
    have opened : ((bench.handles.perform operation).on bench.table).1 = .ok (next value) := by
      rw [performs, on_bind_pure, matched.table_eq, answered]
      rfl
    refine ⟨[operation], table_after bench matched operation next performs, ?_⟩
    change Holds _ _ (bench.after operation).handles.sequences ∧
      Holds _ _ (bench.after operation).handles.cursors
    rw [Bench.handles_after_of_perform_eq_ok opened]
    exact holds value

theorem openSequence (name table : String) (bound size : Literal) :
    (session.take (.openSequence name table bound size)).1.Benched := by
  rw [Session.take]
  split
  · exact benched
  · next place _ =>
      cases found : session.tables[place]? with
      | none => simpa [Session.onTable, found] using benched
      | some before =>
          have worked := @perform session benched _ _ _ found
            (withClass bound size Counting.sequence)
            (fun sequence => [(name, ⟨place, sequence⟩)]) (fun _ => []) (by simp) (by simp)
            fun bench _ => ⟨.openSequence bound size, _, rfl, by simp [Holds]⟩
          simp only [onTable_of_some found]
          cases answered : ((withClass bound size Counting.sequence).on before.table).1 with
          | error error => exact worked.1
          | ok sequence => exact worked.2 sequence answered

theorem advance (name : String) (times : Nat) :
    (session.take (.advance name times)).1.Benched := by
  rw [Session.take]
  split
  · exact benched
  · next cursor named =>
      obtain ⟨earlier, later, entries, _⟩ := List.lookup_eq_some_iff.mp named
      cases found : session.tables[cursor.table]? with
      | none => simpa [Session.onTable, found] using benched
      | some before =>
          have worked := @perform session benched _ _ _ found (cursor.value.advance times)
            (fun _ => []) (fun delivery => [(name, ⟨cursor.table, delivery.cursor⟩)]) (by simp)
            (by simp) fun bench matched => by
              have isOpen := matched.cursors (name, cursor) (by simp [entries]) rfl
              obtain ⟨place, placed⟩ := List.getElem?_of_mem isOpen
              refine ⟨.advance place times, fun delivery =>
                (.delivered delivery.terms delivery.exhausted, { bench.handles with
                  cursors := bench.handles.cursors ++ [delivery.cursor] }), ?_, by simp [Holds]⟩
              rw [Handles.perform, placed]
          simp only [onTable_of_some found]
          cases answered : ((cursor.value.advance times).on before.table).1 with
          | error error => exact worked.1
          | ok delivery => exact worked.2 delivery answered

theorem newCursor (name sequence : String) (direction : Direction) :
    (session.take (.newCursor name sequence direction)).1.Benched := by
  rw [Session.take]
  split
  · exact benched
  · next placed named =>
      obtain ⟨earlier, later, entries, _⟩ := List.lookup_eq_some_iff.mp named
      have member : (sequence, placed) ∈ session.sequences := by simp [entries]
      have placeLt := benched.sequences_lt _ member
      have found := Array.getElem?_eq_getElem placeLt
      have worked := @perform session benched Unit _ _ found (pure ()) (fun _ => [])
        (fun _ => [(name, ⟨placed.table, placed.value.cursor direction⟩)]) (by simp) (by simp)
        fun bench matched => by
          obtain ⟨place, isPlaced⟩ := List.getElem?_of_mem (matched.sequences _ member rfl)
          refine ⟨.openCursor place direction, fun _ => (.nothing, { bench.handles with
            cursors := bench.handles.cursors ++ [placed.value.cursor direction] }), ?_,
            by simp [Holds]⟩
          rw [Handles.perform, isPlaced]
          rfl
      have kept := worked.2 () rfl
      rwa [on_pure, Array.setIfInBounds_def, dif_pos placeLt, Array.set_getElem_self] at kept

theorem enumerate (name : String) (bound size intType : Literal) :
    (session.take (.enumerate name bound size intType)).1.Benched := by
  rw [Session.take]
  split
  · next sequence table made =>
      apply @push session benched (.ofTable table) session.tableNames
        [(name, ⟨session.tables.size, sequence⟩)] (by simp)
      obtain ⟨type, opened⟩ := exists_of_enumerate_eq_ok made
      have performed : ((Bench.fresh type).handles.perform (.openSequence bound size)).on
          (.fresh type) = (.ok (.sequence sequence, ⟨[sequence], []⟩), table) := by
        rw [Handles.perform, on_bind_pure, opened]
        rfl
      refine ⟨type, [.openSequence bound size], ?_, ?_⟩
      · exact ((Bench.fresh type).table_after _).trans (congrArg Prod.snd performed)
      · change Holds _ _ ((Bench.fresh type).after (.openSequence bound size)).handles.sequences
        rw [@Bench.handles_after_of_perform_eq_ok (Bench.fresh type) _ _ _
          (congrArg Prod.fst performed)]
        simp [Holds]
  · exact benched

theorem take {step : Step} (integral : step.IsIntegral) : (session.take step).1.Benched := by
  cases step with
  | newTable name intType =>
      rw [Session.take]
      split
      · next type _ =>
          exact @push session benched (.ofTable (.fresh type)) _ [] (by simp)
            ⟨type, [], rfl, by simp [Holds]⟩
      · exact benched
  | ask table query =>
      apply benched.onTableNamed
      intro before bench table_eq
      refine ⟨[.ask query], (bench.table_after (.ask query)).trans ?_⟩
      rw [Bookkeeping.on_counting, Handles.perform, on_bind_pure, table_eq]
  | lookup table bound size =>
      obtain ⟨⟨bound, rfl⟩, size, rfl⟩ := integral
      apply benched.onTableNamed
      intro before bench table_eq
      refine ⟨[.lookup bound size], (bench.table_after (.lookup bound size)).trans ?_⟩
      rw [table_lookup_int, Handles.perform, on_bind_pure, table_eq]
  | has table bound size =>
      apply benched.onTableNamed
      intro before bench table_eq
      exact ⟨[], table_eq.trans (table_has bound size before).symm⟩
  | showTable table =>
      apply benched.onTableNamed
      intro before bench table_eq
      exact ⟨[], table_eq⟩
  | exportTable table =>
      apply benched.onTableNamed
      intro before bench table_eq
      exact ⟨[], table_eq⟩
  | openSequence name table bound size => exact benched.openSequence name table bound size
  | enumerate name bound size intType => exact benched.enumerate name bound size intType
  | showSequence name => exact benched.onSequenceNamed fun bench sequence _ => ⟨[], rfl⟩
  | length name => exact benched.onSequenceNamed fun bench sequence _ => ⟨[], rfl⟩
  | listLength name =>
      apply benched.onSequenceNamed
      intro bench sequence _
      refine ⟨[], ?_⟩
      rw [on_bind_pure, on_reading]
      rfl
  | askSequence name query =>
      apply benched.onSequenceNamed
      intro bench sequence member
      obtain ⟨place, found⟩ := List.getElem?_of_mem member
      refine ⟨[.askSequence place query], (bench.table_after (.askSequence place query)).trans ?_⟩
      rw [Handles.perform, found, on_bind_pure]
  | newCursor name sequence direction => exact benched.newCursor name sequence direction
  | advance name times => exact benched.advance name times

end Benched

theorem benched_run {session : Session} (benched : session.Benched) {steps : List Step}
    (integral : ∀ step ∈ steps, step.IsIntegral) : (session.run steps).Benched := by
  induction steps generalizing session with
  | nil => exact benched
  | cons step steps inductionHypothesis =>
      have first := benched.take (integral step List.mem_cons_self)
      apply inductionHypothesis first
      intro other member
      exact integral other (List.mem_cons_of_mem step member)

theorem exists_bench {steps : List Step} (integral : ∀ step ∈ steps, step.IsIntegral)
    {ledger : Ledger} (member : ledger ∈ (empty.run steps).tables) :
    ∃ type operations, ((Bench.fresh type).run operations).table = ledger.table := by
  obtain ⟨place, found⟩ := Array.getElem?_of_mem member
  obtain ⟨type, operations, matched⟩ :=
    (benched_run benched_empty integral).exists_bench found
  exact ⟨type, operations, matched.table_eq⟩

end Session
end BinaryLambda
