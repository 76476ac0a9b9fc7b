import BinaryLambda.Recurrence
import BinaryLambda.Table.Basic

/-!
Counting a class with the help of a table.

`lookup` follows the recurrence downwards from the class asked for and stores
what it meets. `count` first fills the region of the class, all that its count
depends on, from the smallest sizes upwards, so that every step of the
recurrence finds the smaller classes in the table.
-/

namespace BinaryLambda
namespace Counting

def lookup (bound size : Int) : Counting Nat := do
  match ← cached? ⟨bound, size⟩ with
  | some value => return value
  | none =>
      let value ← recurrence (variableCount bound size.toNat) size.toNat
        (fun smaller _ => lookup (bound + 1) smaller)
        (fun smaller _ => lookup bound smaller)
      store ⟨bound, size⟩ value
      return value
termination_by size.toNat

def fill (key : Key) : Counting Unit := do
  if key ∉ (← get) then
    let value ← recurrence (variableCount key.bound key.size.toNat) key.size.toNat
      (fun smaller _ => lookup (key.bound + 1) smaller)
      (fun smaller _ => lookup key.bound smaller)
    store key value

end Counting

/-- The classes on which the count of a class depends, the class itself
included: by size, and by bound within a size. An abstraction takes two bits and
frees one more variable, so the bound rises by one for every two bits of size. -/
def region (bound size : Nat) : List Key :=
  (List.range (size + 1)).flatMap fun smaller =>
    (List.range ((size - smaller) / 2 + 1)).map fun lambdas => ⟨(bound + lambdas : Nat), smaller⟩

theorem mem_region {bound size : Nat} {key : Key} :
    key ∈ region bound size ↔
      0 ≤ key.size ∧ key.size ≤ size ∧ bound ≤ key.bound ∧
        key.bound ≤ bound + (size - key.size) / 2 := by
  rcases key with ⟨keyBound, keySize⟩
  simp only [region, List.mem_flatMap, List.mem_range, List.mem_map, Key.mk.injEq]
  constructor
  · rintro ⟨smaller, smallerBound, lambdas, lambdasBound, rfl, rfl⟩
    omega
  · rintro ⟨sizeNonneg, sizeLe, boundLe, boundUpper⟩
    exact ⟨keySize.toNat, by omega, (keyBound - bound).toNat, by omega, by omega, by omega⟩

theorem self_mem_region (bound size : Nat) : ⟨bound, size⟩ ∈ region bound size := by
  simp [mem_region]

namespace Counting

def warm (bound size : Nat) : Counting Unit :=
  (region bound size).forM fill

/-- The number of terms in a class. A class that is not in the table has its
whole region filled. -/
def count (bound size : Nat) : Counting Nat := do
  match ← cached? ⟨bound, size⟩ with
  | some value => return value
  | none =>
      warm bound size
      return (← cached? ⟨bound, size⟩).getD 0

end Counting
end BinaryLambda
