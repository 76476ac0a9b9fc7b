import BinaryLambda.Proofs.CountedClass
import BinaryLambda.Proofs.Sequence.Views
import BinaryLambda.Proofs.Session
import BinaryLambda.Proofs.Standalone

/-!
Cursors side by side.

The cursors of a session share its tables with each other and with all other steps. Moving
one works in a class that is in the table, so it fails in no case and leaves the table as it
is; and a step moves no cursor but the one it names. So each of them delivers the terms of
its own walk, one after the other, whatever is done in between (`Session.Walks.run`).
-/

namespace BinaryLambda

open Counting CountTable

theorem Bench.on_advance (type : IntType) (operations : List Operation) {cursor : Cursor}
    (isOpen : cursor.sequence ∈ ((Bench.fresh type).run operations).handles.sequences)
    (times : Nat) :
    (cursor.advance times).on ((Bench.fresh type).run operations).table =
      (.ok ⟨cursor.remaining.take times, decide (cursor.remaining.length < times),
        cursor.behind (min times cursor.remaining.length)⟩,
        ((Bench.fresh type).run operations).table) := by
  obtain ⟨isExact, fits⟩ := isExact_of_mem_sequences type operations isOpen
  have member := mem_iff_exists_get?.mpr
    ⟨_, hasSequences_run_fresh type operations cursor.sequence isOpen⟩
  have closed := (closedFrom_run_fresh type operations).closed
  have answers := (ready_of_fits (.fresh type)).advance_answers isExact fits times
  exact Prod.ext (answers _ (soundFrom_run_fresh type operations)).1
    (quiet_advance closed member rfl times).1

namespace Step

def asked (name : String) : Step → Nat
  | .advance other times => if other = name then times else 0
  | _ => 0

def delivered (name : String) : Step → Option (Except Error Answer) → List Term
  | .advance other _, some (.ok (.delivered terms _)) => if other = name then terms else []
  | _, _ => []

def cursor? : Step → Option String
  | .newCursor cursor _ _ | .advance cursor _ => some cursor
  | _ => none

variable {step : Step} {name : String}

theorem asked_of_ne (ne : step.cursor? ≠ some name) : step.asked name = 0 := by
  cases step with
  | advance other times => exact if_neg fun same => ne (congrArg some same)
  | _ => rfl

theorem delivered_of_ne (ne : step.cursor? ≠ some name)
    (answer? : Option (Except Error Answer)) : step.delivered name answer? = [] := by
  unfold delivered
  split
  · exact if_neg fun same => ne (congrArg some same)
  · rfl

theorem advances_or_ne
    (kept : ∀ sequence direction, step ≠ .newCursor name sequence direction) :
    (∃ times, step = .advance name times) ∨ step.cursor? ≠ some name := by
  cases step with
  | newCursor other sequence direction =>
      refine .inr fun same => ?_
      cases same
      exact kept sequence direction rfl
  | advance other times =>
      by_cases same : other = name
      · exact .inl ⟨times, congrArg (Step.advance · times) same⟩
      · exact .inr fun named => same (Option.some.inj named)
  | _ => exact .inr (by simp [cursor?])

end Step

namespace Session

def deliveries (name : String) (session : Session) : List Step → List Term
  | [] => []
  | step :: steps =>
      step.delivered name (session.take step).2 ++ (session.take step).1.deliveries name steps

variable {session : Session}

/-- Work on a table changes no more than the tables. -/
theorem exists_eq_of_onTable_eq {α : Type} {place : Nat} {computation : Bookkeeping α}
    {after : Session} {answer? : Option (Except Error α)}
    (ran : session.onTable place computation = (after, answer?)) :
    ∃ tables, after = { session with tables } := by
  unfold onTable at ran
  split at ran
  · cases ran
    exact ⟨_, rfl⟩
  · cases ran
    exact ⟨_, rfl⟩

/-- What the second session has that the first has not: sequences, and cursors that have one
of the names. -/
def Opens (session after : Session) (names : String → Prop) : Prop :=
  ∃ sequences cursors, after.sequences = sequences ++ session.sequences ∧
    after.cursors = cursors ++ session.cursors ∧ ∀ entry ∈ cursors, names entry.1

theorem Opens.nothing {names : String → Prop} {after : Session} {tables : Array Ledger}
    {tableNames : List (String × Nat)} (after_eq : after = { session with tables, tableNames }) :
    session.Opens after names :=
  ⟨[], [], by rw [after_eq]; rfl, by rw [after_eq]; rfl, by simp⟩

theorem opens_of_onTable_eq {α : Type} {place : Nat} {computation : Bookkeeping α}
    {after : Session} {answer? : Option (Except Error α)} {names : String → Prop}
    (ran : session.onTable place computation = (after, answer?)) : session.Opens after names := by
  obtain ⟨tables, after_eq⟩ := exists_eq_of_onTable_eq ran
  exact .nothing after_eq

theorem opens_onTableNamed (name : String) (computation : Bookkeeping Answer)
    (names : String → Prop) : session.Opens (session.onTableNamed name computation).1 names := by
  unfold onTableNamed
  split
  · exact .nothing rfl
  · exact opens_of_onTable_eq rfl

theorem opens_onSequenceNamed (name : String) (computation : TermSequence → Counting Answer)
    (names : String → Prop) : session.Opens (session.onSequenceNamed name computation).1 names := by
  unfold onSequenceNamed
  split
  · exact .nothing rfl
  · exact opens_of_onTable_eq rfl

/-- A step opens cursors under the name that it has for one, and closes nothing. -/
theorem opens_take (session : Session) (step : Step) :
    session.Opens (session.take step).1 (step.cursor? = some ·) := by
  cases step with
  | newTable name intType =>
      rw [take]
      split <;> exact .nothing rfl
  | ask | lookup | has | showTable | exportTable => exact opens_onTableNamed _ _ _
  | showSequence | length | listLength | askSequence => exact opens_onSequenceNamed _ _ _
  | openSequence name table bound size =>
      rw [take]
      split
      · exact .nothing rfl
      · dsimp only
        split
        · next ran =>
            obtain ⟨tables, rfl⟩ := exists_eq_of_onTable_eq ran
            exact ⟨[_], [], rfl, rfl, by simp⟩
        · next ran => exact opens_of_onTable_eq ran
        · next ran => exact opens_of_onTable_eq ran
  | enumerate name bound size intType =>
      rw [take]
      split
      · exact ⟨[_], [], rfl, rfl, by simp⟩
      · exact .nothing rfl
  | newCursor name sequence direction =>
      rw [take]
      split
      · exact .nothing rfl
      · exact ⟨[], [_], rfl, rfl, by simp [Step.cursor?]⟩
  | advance name times =>
      rw [take]
      split
      · exact .nothing rfl
      · split
        · next ran =>
            obtain ⟨tables, rfl⟩ := exists_eq_of_onTable_eq ran
            exact ⟨[], [_], rfl, rfl, by simp [Step.cursor?]⟩
        · next ran => exact opens_of_onTable_eq ran
        · next ran => exact opens_of_onTable_eq ran

theorem lookup_cursors_take {step : Step} {name : String} (ne : step.cursor? ≠ some name) :
    (session.take step).1.cursors.lookup name = session.cursors.lookup name := by
  obtain ⟨_, cursors, _, cursors_eq, names⟩ := opens_take session step
  have isNew : cursors.lookup name = none := by
    rw [List.lookup_eq_none_iff]
    intro entry member
    rw [bne_iff_ne]
    rintro rfl
    exact ne (names entry member)
  rw [cursors_eq, List.lookup_append, isNew, Option.none_or]

theorem mem_sequences_take {entry : String × Placed TermSequence}
    (member : entry ∈ session.sequences) (step : Step) :
    entry ∈ (session.take step).1.sequences := by
  obtain ⟨sequences, _, sequences_eq, _⟩ := opens_take session step
  rw [sequences_eq]
  exact List.mem_append_right sequences member

/-- The name is that of a cursor of the sequence, which has yet to deliver the given terms. -/
structure Walks (session : Session) (name : String) (opened : Placed TermSequence)
    (remaining : List Term) : Prop where
  isOpen : ∃ sequenceName, (sequenceName, opened) ∈ session.sequences
  named : ∃ cursor : Cursor, session.cursors.lookup name = some ⟨opened.table, cursor⟩ ∧
    cursor.sequence = opened.value ∧ cursor.remaining = remaining

theorem walks_newCursor {name sequence : String} {direction : Direction}
    {opened : Placed TermSequence} (found : session.sequences.lookup sequence = some opened) :
    (session.take (.newCursor name sequence direction)).1.Walks name opened
      (walkTerms opened.value.bound opened.value.size direction) := by
  obtain ⟨earlier, later, entries, _⟩ := List.lookup_eq_some_iff.mp found
  have isOpen : (sequence, opened) ∈ session.sequences := by simp [entries]
  refine ⟨⟨sequence, mem_sequences_take isOpen _⟩, opened.value.cursor direction, ?_, rfl, rfl⟩
  rw [take, found]
  exact List.lookup_cons_self

namespace Walks

variable {name : String} {opened : Placed TermSequence} {remaining : List Term}
  (walks : session.Walks name opened remaining)

include walks

theorem take_of_ne {step : Step} (ne : step.cursor? ≠ some name) :
    (session.take step).1.Walks name opened remaining := by
  obtain ⟨sequenceName, isOpen⟩ := walks.isOpen
  refine ⟨⟨sequenceName, mem_sequences_take isOpen step⟩, ?_⟩
  rw [lookup_cursors_take ne]
  exact walks.named

/-- A cursor delivers the next of its terms, and leaves all tables as they are. -/
theorem take_advance (benched : session.Benched) (times : Nat) :
    let moved := session.take (.advance name times)
    moved.2 = some (.ok (.delivered (remaining.take times) (decide (remaining.length < times)))) ∧
      moved.1.tables = session.tables ∧ moved.1.Walks name opened (remaining.drop times) := by
  intro moved
  obtain ⟨sequenceName, isOpen⟩ := walks.isOpen
  obtain ⟨cursor, found, sequence_eq, rfl⟩ := walks.named
  have placeLt := benched.sequences_lt _ isOpen
  have tableFound := Array.getElem?_eq_getElem placeLt
  obtain ⟨type, operations, matched⟩ := benched.exists_bench tableFound
  have onBench : cursor.sequence ∈ ((Bench.fresh type).run operations).handles.sequences := by
    rw [sequence_eq]
    exact matched.sequences _ isOpen rfl
  have advanced := Bench.on_advance type operations onBench times
  rw [matched.table_eq] at advanced
  have moved_eq : moved = (session.nameCursor name
      ⟨opened.table, cursor.behind (min times cursor.remaining.length)⟩,
      some (.ok (.delivered (cursor.remaining.take times)
        (decide (cursor.remaining.length < times))))) := by
    simp only [moved, take, found, Benched.onTable_of_some tableFound, advanced]
    rw [Array.setIfInBounds_def, dif_pos placeLt, Array.set_getElem_self]
  rw [moved_eq]
  exact ⟨rfl, rfl, ⟨sequenceName, isOpen⟩, _, List.lookup_cons_self, sequence_eq,
    cursor.remaining_behind times⟩

/-- Whatever the steps are, the cursor delivers its terms in their order, as many as it is
asked for. -/
theorem run (benched : session.Benched) {steps : List Step}
    (integral : ∀ step ∈ steps, step.IsIntegral)
    (kept : ∀ step ∈ steps, ∀ sequence direction, step ≠ .newCursor name sequence direction) :
    session.deliveries name steps = remaining.take (steps.map (Step.asked name)).sum ∧
      (session.run steps).Walks name opened
        (remaining.drop (steps.map (Step.asked name)).sum) := by
  -- A step moves this cursor, and what it delivers comes off its terms, or it leaves them.
  induction steps generalizing session remaining with
  | nil => exact ⟨rfl, walks⟩
  | cons step steps inductionHypothesis =>
      obtain ⟨stepIntegral, stepsIntegral⟩ := List.forall_mem_cons.mp integral
      obtain ⟨stepKept, stepsKept⟩ := List.forall_mem_cons.mp kept
      have after := benched.take stepIntegral
      rw [deliveries, List.map_cons, List.sum_cons]
      rcases Step.advances_or_ne stepKept with ⟨times, rfl⟩ | ne
      · obtain ⟨answer_eq, _, moved⟩ := walks.take_advance benched times
        have asked_eq : (Step.advance name times).asked name = times := if_pos rfl
        have delivered_eq : (Step.advance name times).delivered name
            (session.take (.advance name times)).2 = remaining.take times := by
          rw [answer_eq]
          exact if_pos rfl
        rw [asked_eq, delivered_eq, List.take_add, ← List.drop_drop]
        obtain ⟨delivers, rest⟩ := inductionHypothesis moved after stepsIntegral stepsKept
        exact ⟨congrArg _ delivers, rest⟩
      · rw [Step.asked_of_ne ne, Step.delivered_of_ne ne, Nat.zero_add, List.nil_append]
        exact inductionHypothesis (walks.take_of_ne ne) after stepsIntegral stepsKept

end Walks

/-- Whatever is done before a cursor is opened and while it walks, with its table, with other
cursors and with other sequences: its terms are those of the ranks from the first on, or from
the last on backwards, it is exhausted when it is asked for a term behind the last one of
them, and moving it never fails nor changes a table. -/
theorem independent_cursors {earlier later : List Step}
    (integral : ∀ step ∈ earlier ++ later, step.IsIntegral) {sequence name : String}
    {opened : Placed TermSequence}
    (found : (empty.run earlier).sequences.lookup sequence = some opened) (direction : Direction)
    (kept : ∀ step ∈ later, ∀ other direction, step ≠ .newCursor name other direction) :
    let bound := opened.value.bound
    let size := opened.value.size
    let start := empty.run (earlier ++ [.newCursor name sequence direction])
    let terms := start.deliveries name later
    let asked := (later.map (Step.asked name)).sum
    ∃ total, Standalone.count (.int bound) (.int size) .nothing = .ok total ∧
      (terms.length = min asked total ∧ ∀ place term, terms[place]? = some term →
        Standalone.unrank (.int bound) (.int size)
          (.int (walkRank total (place + 1) direction)) .nothing = .ok term) ∧
      ∀ times, let moved := (start.run later).take (.advance name times)
        moved.1.tables = (start.run later).tables ∧
          ∃ next exhausted, moved.2 = some (.ok (.delivered next exhausted)) ∧
            (exhausted = true ↔ 0 < times ∧ total < asked + times) := by
  intro bound size start terms asked
  have start_eq : start = ((empty.run earlier).take (.newCursor name sequence direction)).1 :=
    List.foldl_append ..
  obtain ⟨earlierIntegral, laterIntegral⟩ := List.forall_mem_append.mp integral
  have benched : start.Benched := by
    rw [start_eq]
    exact (benched_run benched_empty earlierIntegral).take trivial
  have walks : start.Walks name opened (walkTerms bound size direction) := by
    rw [start_eq]
    exact walks_newCursor found
  obtain ⟨delivers, after⟩ := walks.run benched laterIntegral kept
  have terms_eq : terms = (walkTerms bound size direction).take asked := delivers
  refine ⟨classSize bound size, Standalone.count_eq rfl bound size, ⟨?_, ?_⟩, fun times => ?_⟩
  · rw [terms_eq, List.length_take, length_walkTerms]
  · intro place term isDelivered
    rw [terms_eq, List.getElem?_take, Option.ite_none_right_eq_some] at isDelivered
    exact Standalone.unrank_eq_ok_of_hasRank rfl (hasRank_of_getElem?_walkTerms isDelivered.2)
  · obtain ⟨answer_eq, tables_eq, _⟩ :=
      after.take_advance (benched_run benched laterIntegral) times
    refine ⟨tables_eq, _, _, answer_eq, ?_⟩
    rw [decide_eq_true_iff, List.length_drop, length_walkTerms]
    omega

/-- A cursor walks backwards through the two closed terms of size 8, while another cursor
moves and a count overflows on the table. -/
theorem independent_cursors_backward :
    let earlier : List Step := [.newTable "t" (.scalar (.columnTypeObject "Int8")),
      .openSequence "s" "t" (.int 0) (.int 8), .newCursor "other" "s" .forward]
    let later : List Step := [.advance "own" 1, .ask "t" (.count (.int 0) (.int 17)),
      .advance "other" 2, .lookup "t" (.int (-1)) (.int 9), .advance "own" 3]
    let start := empty.run (earlier ++ [.newCursor "own" "s" .backward])
    let terms := start.deliveries "own" later
    let moved := (start.run later).take (.advance "own" 1)
    terms.length = 2 ∧
      (∀ place term, terms[place]? = some term →
        Standalone.unrank (.int (0 : Nat)) (.int (8 : Nat))
          (.int (walkRank 2 (place + 1) .backward)) .nothing = .ok term) ∧
      moved.1.tables = (start.run later).tables ∧
      ∃ next, moved.2 = some (.ok (.delivered next true)) := by
  intro earlier later
  have found : ((empty.run earlier).sequences.lookup "s").map
      (fun opened => (opened.table, opened.value)) = some (0, ⟨0, 8, 2⟩) := by decide +kernel
  obtain ⟨⟨place, opened⟩, named, opened_eq⟩ := Option.map_eq_some_iff.mp found
  cases opened_eq
  have integral : ∀ step ∈ earlier ++ later, step.IsIntegral := by
    simp [earlier, later, Step.IsIntegral]
  obtain ⟨total, counted, ⟨length_eq, unranked⟩, moves⟩ :=
    @independent_cursors earlier later integral "s" "own" _ named .backward (by simp [later])
  obtain rfl : total = 2 := by
    rw [Standalone.count_eq rfl, classSize_closed_eight] at counted
    exact (Except.ok.inj counted).symm
  obtain ⟨tables_eq, next, exhausted, answer_eq, exhausted_iff⟩ := moves 1
  obtain rfl : exhausted = true := exhausted_iff.mpr (by decide)
  exact ⟨length_eq, unranked, tables_eq, next, answer_eq⟩

end Session
end BinaryLambda
