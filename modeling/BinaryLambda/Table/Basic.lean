import BinaryLambda.Error.Basic
import Std.Data.TreeMap

/-!
Tables of counted classes.

A table maps the bound and the size of a class to the number of its terms. It
is ordered by bound and then by size, and every number it takes must fit its
integer type. `Counting` is a computation on a table that may fail; what it
stored before a failure stays.
-/

namespace BinaryLambda

/-- The bound and the size of a class. Either may be negative: such a class has
a count too. -/
structure Key where
  bound : Int
  size : Int
  deriving DecidableEq, Repr, Inhabited

namespace Key

def cmp : Key → Key → Ordering := compareLex (compareOn Key.bound) (compareOn Key.size)

instance : Std.TransCmp cmp :=
  inferInstanceAs (Std.TransCmp (compareLex (compareOn Key.bound) (compareOn Key.size)))

instance : Std.LawfulEqCmp cmp where
  eq_of_compare {first second} equal := by
    cases first
    cases second
    simp [cmp, compareLex, compareOn, Ordering.then_eq_eq] at equal
    simp [equal]

end Key

structure CountTable where
  intType : IntType
  entries : Std.TreeMap Key Nat Key.cmp

namespace CountTable

def fresh (intType : IntType) : CountTable := ⟨intType, ∅⟩

def size (table : CountTable) : Nat := table.entries.size

def get? (table : CountTable) (key : Key) : Option Nat := table.entries[key]?

instance : Membership Key CountTable := ⟨fun table key => key ∈ table.entries⟩

instance (table : CountTable) (key : Key) : Decidable (key ∈ table) :=
  inferInstanceAs (Decidable (key ∈ table.entries))

theorem mem_iff_isSome_get? {table : CountTable} {key : Key} :
    key ∈ table ↔ (table.get? key).isSome :=
  Std.TreeMap.mem_iff_isSome_getElem?

def insert (table : CountTable) (key : Key) (value : Nat) : CountTable :=
  { table with entries := table.entries.insert key value }

@[simp] theorem get?_fresh (intType : IntType) (key : Key) : (fresh intType).get? key = none := by
  simp [fresh, get?]

theorem get?_insert (table : CountTable) (key other : Key) (value : Nat) :
    (table.insert key value).get? other = if key = other then some value else table.get? other := by
  simp [get?, insert, Std.TreeMap.getElem?_insert, Std.LawfulEqCmp.compare_eq_iff_eq]

@[simp] theorem intType_insert (table : CountTable) (key : Key) (value : Nat) :
    (table.insert key value).intType = table.intType := rfl

end CountTable

abbrev Counting := EStateM Error CountTable

namespace Counting

def cached? (key : Key) : Counting (Option Nat) := return (← get).get? key

/-- Stores a count, or refuses one that does not fit the type of the table. -/
def store (key : Key) (value : Nat) : Counting Unit := do
  let intType := (← get).intType
  if intType.Fits value then
    modify fun table => table.insert key value
  else
    throw (.overflow (.int key.bound) key.size intType value)

variable {α : Type}

def on (computation : Counting α) (table : CountTable) : Except Error α × CountTable :=
  match computation.run table with
  | .ok answer after => (.ok answer, after)
  | .error error after => (.error error, after)

def onFresh (computation : Counting α) (intType : IntType) : Except Error α :=
  (computation.on (.fresh intType)).1

end Counting
end BinaryLambda
