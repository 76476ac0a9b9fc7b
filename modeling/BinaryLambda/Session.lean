import BinaryLambda.Ledger.Lookup
import BinaryLambda.Standalone

/-!
Sessions: several tables, sequences and cursors at work together, by name.

A table stays in its session as long as a sequence or a cursor belongs to it,
also when its name has come to mean another table. A step that would give a name
a meaning and fails leaves the meaning that the name had. Each reply says how
many classes the table that the step is about has counted after it.
-/

namespace BinaryLambda

structure Placed (α : Type) where
  table : Nat
  value : α
  deriving Repr

structure Session where
  tables : Array Ledger
  tableNames : List (String × Nat)
  sequences : List (String × Placed TermSequence)
  cursors : List (String × Placed Cursor)

inductive Step where
  | newTable (table : String) (intType : Literal)
  | ask (table : String) (query : Query)
  /-- The count of a class by the recurrence alone, without filling its region. -/
  | lookup (table : String) (bound size : Literal)
  | has (table : String) (bound size : Literal)
  | showTable (table : String)
  | exportTable (table : String)
  | openSequence (sequence table : String) (bound size : Literal)
  /-- Opens a sequence on a table of its own. -/
  | enumerate (sequence : String) (bound size intType : Literal)
  | showSequence (sequence : String)
  | length (sequence : String)
  | listLength (sequence : String)
  | askSequence (sequence : String) (query : SequenceQuery)
  | newCursor (cursor sequence : String) (direction : Direction)
  | advance (cursor : String) (times : Nat)

/-- The answer to a step, or nothing where it uses a name without a meaning; and
the number of classes in the table that the step is about, if there is one. -/
structure Reply where
  answer? : Option (Except Error Answer)
  entries? : Option Nat

namespace Session

def empty : Session := ⟨#[], [], [], []⟩

def nameTable (session : Session) (name : String) (table : Ledger) : Session :=
  { session with
    tables := session.tables.push table
    tableNames := (name, session.tables.size) :: session.tableNames }

def nameSequence (session : Session) (name : String) (sequence : Placed TermSequence) : Session :=
  { session with sequences := (name, sequence) :: session.sequences }

def nameCursor (session : Session) (name : String) (cursor : Placed Cursor) : Session :=
  { session with cursors := (name, cursor) :: session.cursors }

def onTable {α : Type} (session : Session) (table : Nat) (computation : Bookkeeping α) :
    Session × Option (Except Error α) :=
  match session.tables[table]? with
  | none => (session, none)
  | some before =>
      let (answer, after) := computation.on before
      ({ session with tables := session.tables.setIfInBounds table after }, some answer)

def onTableNamed (session : Session) (name : String) (computation : Bookkeeping Answer) :
    Session × Option (Except Error Answer) :=
  match session.tableNames.lookup name with
  | none => (session, none)
  | some table => session.onTable table computation

def onSequenceNamed (session : Session) (name : String)
    (computation : TermSequence → Counting Answer) : Session × Option (Except Error Answer) :=
  match session.sequences.lookup name with
  | none => (session, none)
  | some sequence => session.onTable sequence.table (.counting (computation sequence.value))

def take (session : Session) : Step → Session × Option (Except Error Answer)
  | .newTable name intType =>
      match intType.intType with
      | .ok type =>
          let table := Ledger.ofTable (.fresh type)
          (session.nameTable name table, some (.ok (.text table.text)))
      | .error error => (session, some (.error error))
  | .ask table query => session.onTableNamed table (.counting query.answer)
  | .lookup table bound size => session.onTableNamed table do
      return .number (← Bookkeeping.lookup bound size)
  | .has table bound size => session.onTableNamed table do
      return .flag (← Bookkeeping.has bound size)
  | .showTable table => session.onTableNamed table do return .text (← get).text
  | .exportTable table => session.onTableNamed table do return .frame (← get).toFrame?
  | .openSequence name table bound size =>
      match session.tableNames.lookup table with
      | none => (session, none)
      | some table =>
          let opened := Counting.withClass bound size Counting.sequence
          match session.onTable table (.counting opened) with
          | (after, some (.ok sequence)) =>
              (after.nameSequence name ⟨table, sequence⟩, some (.ok (.sequence sequence)))
          | (after, some (.error error)) => (after, some (.error error))
          | (after, none) => (after, none)
  | .enumerate name bound size intType =>
      match Standalone.enumerate bound size intType with
      | .ok (sequence, table) =>
          ({ session with tables := session.tables.push (.ofTable table) }.nameSequence name
            ⟨session.tables.size, sequence⟩, some (.ok (.sequence sequence)))
      | .error error => (session, some (.error error))
  | .showSequence name => session.onSequenceNamed name fun sequence =>
      return .text sequence.text
  | .length name => session.onSequenceNamed name fun sequence =>
      return .number sequence.length
  | .listLength name => session.onSequenceNamed name fun sequence =>
      return .number (← Counting.reading sequence.listLength)
  | .askSequence name query => session.onSequenceNamed name fun sequence =>
      query.answer sequence
  | .newCursor name sequence direction =>
      match session.sequences.lookup sequence with
      | none => (session, none)
      | some sequence =>
          (session.nameCursor name ⟨sequence.table, sequence.value.cursor direction⟩,
            some (.ok .nothing))
  | .advance name times =>
      match session.cursors.lookup name with
      | none => (session, none)
      | some cursor =>
          match session.onTable cursor.table (.counting (cursor.value.advance times)) with
          | (after, some (.ok delivery)) =>
              (after.nameCursor name ⟨cursor.table, delivery.cursor⟩,
                some (.ok (.delivered delivery.terms delivery.exhausted)))
          | (after, some (.error error)) => (after, some (.error error))
          | (after, none) => (after, none)

/-- The table that a step is about, by what its names mean now. -/
def table? (session : Session) : Step → Option Nat
  | .newTable table _ | .ask table _ | .lookup table _ _ | .has table _ _ | .showTable table
  | .exportTable table | .openSequence _ table _ _ => session.tableNames.lookup table
  | .enumerate sequence _ _ _ | .showSequence sequence | .length sequence | .listLength sequence
  | .askSequence sequence _ | .newCursor _ sequence _ =>
      (session.sequences.lookup sequence).map Placed.table
  | .advance cursor _ => (session.cursors.lookup cursor).map Placed.table

def entries? (session : Session) (step : Step) : Option Nat := do
  let table ← session.tables[← session.table? step]?
  return table.size

def reply (session : Session) (step : Step) : Session × Reply :=
  match session.take step with
  | (after, none) => (after, ⟨none, none⟩)
  | (after, some answer) => (after, ⟨some answer, after.entries? step⟩)

def replies (session : Session) : List Step → List Reply
  | [] => []
  | step :: steps =>
      let (after, reply) := session.reply step
      reply :: after.replies steps

end Session
end BinaryLambda
