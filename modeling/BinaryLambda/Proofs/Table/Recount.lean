import BinaryLambda.Proofs.Table.Closure

/-!
Counting a class from a table that has all that is read for it.

The recurrence can be given any way to look up classes. Where all that it reads is in the table,
the ways that give what is there cannot be told apart: the count is made from the table, and
nothing is stored on the way (`on_recountBy`). So only the class itself is stored
(`on_fillBy`), and this is so of tables that are not sound as well.
-/

namespace BinaryLambda

open Counting CountTable

def CountTable.recount (table : CountTable) (key : Key) : Nat :=
  (recurrence (variableCount key.bound key.size.toNat) key.size.toNat
    (fun smaller _ => pure ((table.get? ⟨key.bound + 1, smaller⟩).getD 0))
    (fun smaller _ => pure ((table.get? ⟨key.bound, smaller⟩).getD 0)) : Id Nat).run

namespace Counting

/-- A way to look up classes that gives the counts that a table has, and leaves it as it is. What
it does about a class that the table does not have is open. -/
def Finds (find : Key → Counting Nat) : Prop :=
  ∀ ⦃table : CountTable⦄ ⦃key : Key⦄ ⦃value : Nat⦄, table.get? key = some value →
    (find key).on table = (.ok value, table)

theorem finds_lookup : Finds fun key => lookup key.bound key.size :=
  fun _ _ _ found => on_lookup_of_some found

def recountBy (find : Key → Counting Nat) (key : Key) : Counting Nat :=
  recurrence (variableCount key.bound key.size.toNat) key.size.toNat
    (fun smaller _ => find ⟨key.bound + 1, smaller⟩)
    (fun smaller _ => find ⟨key.bound, smaller⟩)

def fillBy (find : Key → Counting Nat) (key : Key) : Counting Unit := do
  if key ∉ (← get) then
    let value ← recountBy find key
    store key value

theorem fillBy_lookup : fillBy (fun key => lookup key.bound key.size) = fill := rfl

section Reads

variable {table : CountTable} {key : Key} (read : ∀ other, key.Reads other → other ∈ table)

include read

/-- Where all that the recurrence reads is in the table, whatever else is there, the count is
made from it, and nothing is stored. -/
theorem on_recountBy {find : Key → Counting Nat} (finds : Finds find) :
    (recountBy find key).on table = (.ok (table.recount key), table) := by
  have hit : ∀ other, key.Reads other →
      (find other).on table = (.ok ((table.get? other).getD 0), table) := by
    intro other reads
    obtain ⟨value, found⟩ := mem_iff_exists_get?.mp (read other reads)
    rw [finds found, found]
    rfl
  refine recurrence_related (fun {α} (exact : Id α) (counting : Counting α) =>
    counting.on table = (.ok exact.run, table)) ?_ ?_ ?_ ?_
  · exact fun value => rfl
  · rintro α β first counting next rest ran restRan
    rw [on_bind_of_ok (congrArg Prod.fst ran), ran]
    exact restRan first.run
  · exact fun smaller lt size_eq => hit ⟨key.bound + 1, smaller⟩ (Key.reads_bodies size_eq)
  · exact fun smaller lt sizeLe => hit ⟨key.bound, smaller⟩ (Key.reads_parts sizeLe)

theorem on_recount_of_reads : (recount key).on table = (.ok (table.recount key), table) :=
  on_recountBy read finds_lookup

theorem on_fillBy {find : Key → Counting Nat} (finds : Finds find) :
    (fillBy find key).on table =
      if key ∉ table then (store key (table.recount key)).on table else (.ok (), table) := by
  have asked : ((get : Counting CountTable).on table).1 = .ok table := rfl
  have counted := on_recountBy read finds
  rw [fillBy, on_bind_of_ok asked]
  split
  · change (recountBy find key >>= fun value => store key value).on table = _
    rw [on_bind_of_ok (congrArg Prod.fst counted), counted]
  · rfl

theorem mem_fill_of_mem {other : Key} (member : other ∈ table) :
    other ∈ ((fill key).on table).2 := by
  rw [← fillBy_lookup, on_fillBy read finds_lookup, on_store]
  split_ifs
  · exact member
  · exact mem_insert.mpr (.inr member)
  · exact member

end Reads
end Counting
end BinaryLambda
