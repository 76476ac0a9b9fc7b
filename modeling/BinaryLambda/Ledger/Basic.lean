import BinaryLambda.Coordinate
import BinaryLambda.Table.Export
import Std.Data.HashMap

/-!
Ledgers: a table of counts, and the classes counted beside it.

A lookup may be given a bound or a size that is no integer. What it counts then
is kept beside the table, under the coordinates that it was given. The classes
of integers are all in the table, however they were written.
-/

namespace BinaryLambda

def Place.key? (place : Place) : Option Key := do
  return ⟨← place.bound.integer?, ← place.size.integer?⟩

@[simp] theorem Place.key?_canonical (place : Place) : place.canonical.key? = place.key? := by
  simp [Place.key?, Place.canonical]

structure Ledger where
  table : CountTable
  /-- The counts of the classes that have no key, by their canonical places. -/
  strays : Std.HashMap Place Nat
  floating : Bool

namespace Ledger

def ofTable (table : CountTable) : Ledger := ⟨table, ∅, false⟩

def size (ledger : Ledger) : Nat := ledger.table.size + ledger.strays.size

def get? (ledger : Ledger) (place : Place) : Option Nat :=
  match place.key? with
  | some key => ledger.table.get? key
  | none => ledger.strays[place.canonical]?

theorem get?_canonical (ledger : Ledger) (place : Place) :
    ledger.get? place.canonical = ledger.get? place := by
  simp [get?]

def insert (ledger : Ledger) (place : Place) (value : Nat) : Ledger :=
  let floating := ledger.floating || place.isFloating
  match place.key? with
  | some key => { ledger with table := ledger.table.insert key value, floating }
  | none => { ledger with strays := ledger.strays.insert place.canonical value, floating }

@[simp] theorem get?_insert_self (ledger : Ledger) (place : Place) (value : Nat) :
    (ledger.insert place value).get? place = some value := by
  cases key : place.key? <;> simp [insert, get?, key, CountTable.get?_insert]

def text (ledger : Ledger) : String :=
  "CountTable(int_type=" ++ ledger.table.intType.text ++ ", entries=" ++
    toString ledger.size ++ ")"

/-- The sizes and counts of the strays, if nothing is the bound of all of them. -/
def withoutBound? (ledger : Ledger) : Option (List (Int × Nat)) :=
  ledger.strays.toList.mapM fun (place, value) =>
    match place.bound, place.size with
    | .other .nothing, .whole size => some (size, value)
    | _, _ => none

/-- All that has been counted, in order. Floating-point numbers have no place in
the cells for bounds and sizes, and nothing has no place among the numbers, so
there is a frame only where either all bounds are numbers or none is. -/
def toFrame? (ledger : Ledger) : Option Frame :=
  if ledger.floating then none
  else if ledger.strays.isEmpty then ledger.table.toFrame?
  else if ledger.table.size = 0 then do
    let classes := (← ledger.withoutBound?).mergeSort fun first second => first.1 ≤ second.1
    if ∀ entry ∈ classes, IsPosition entry.1 then
      some (.ofClasses ledger.table.intType
        (classes.map fun entry => [none, some entry.1, some entry.2]))
    else
      none
  else
    none

end Ledger

/-- A computation on a ledger that may fail. What it stored before a failure
stays. -/
abbrev Bookkeeping := EStateM Error Ledger

namespace Bookkeeping

variable {α : Type}

def counting (computation : Counting α) : Bookkeeping α := fun ledger =>
  match computation.on ledger.table with
  | (.ok value, table) => .ok value { ledger with table }
  | (.error error, table) => .error error { ledger with table }

def on (computation : Bookkeeping α) (ledger : Ledger) : Except Error α × Ledger :=
  match computation.run ledger with
  | .ok answer after => (.ok answer, after)
  | .error error after => (.error error, after)

theorem on_counting (computation : Counting α) (ledger : Ledger) :
    (counting computation).on ledger =
      ((computation.on ledger.table).1,
        { ledger with table := (computation.on ledger.table).2 }) := by
  rcases step : computation.on ledger.table with ⟨answer | answer, table⟩ <;>
    simp [on, counting, EStateM.run, step]

end Bookkeeping
end BinaryLambda
