import BinaryLambda.Table.Count

/-!
Tables of counts as frames: named columns, each of one cell type, and rows.

A table is exported as it stands, one row for each class it has counted, or as
a matrix with a row for each size and a column for each bound, which counts the
classes that are missing.
-/

namespace BinaryLambda

inductive CellType where
  /-- Bounds and sizes: numbers of 32 bits without a sign. -/
  | position
  | count (type : IntType)
  deriving DecidableEq, Repr

/-- The name of a cell type. Unbounded counts are kept as objects. -/
def CellType.name : CellType → String
  | position => "UInt32"
  | count type => type.name?.getD "Object"

structure Frame where
  columns : List (String × CellType)
  rows : List (List (Option Int))
  deriving DecidableEq, Repr

def Frame.ofClasses (type : IntType) (rows : List (List (Option Int))) : Frame :=
  ⟨[("m", .position), ("n", .position), ("count", .count type)], rows⟩

def IsPosition (value : Int) : Prop := 0 ≤ value ∧ value < 0x100000000

instance (value : Int) : Decidable (IsPosition value) :=
  inferInstanceAs (Decidable (_ ∧ _))

/-- All that the table has counted, in the order of bounds and then sizes. There
is no frame if a bound or a size is out of the range of its cells. -/
def CountTable.toFrame? (table : CountTable) : Option Frame :=
  let entries := table.entries.toList
  if ∀ entry ∈ entries, IsPosition entry.1.bound ∧ IsPosition entry.1.size then
    some (.ofClasses table.intType
      (entries.map fun entry => [some entry.1.bound, some entry.1.size, some entry.2]))
  else
    none

namespace Counting

def countSizes (bound size : Nat) : Counting (List Nat) :=
  (List.range (size + 1)).mapM fun smaller => count bound smaller

/-- The counts of all sizes up to `size`, one row each, under all bounds up to
`bound`, one column each. -/
def matrix (bound size : Nat) : Counting Frame := do
  let columns ← (List.range (bound + 1)).mapM fun smaller => countSizes smaller size
  let type := (← get).intType
  let names := (List.range (bound + 1)).map fun smaller => "m=" ++ toString smaller
  return {
    columns := ("n", .position) :: names.map fun name => (name, .count type)
    rows := (List.range (size + 1)).map fun (smaller : Nat) =>
      some (smaller : Int) :: columns.map fun column => some (column.getD smaller 0 : Int) }

end Counting
end BinaryLambda
