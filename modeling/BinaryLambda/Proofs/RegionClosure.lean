import BinaryLambda.Proofs.Bench
import BinaryLambda.Proofs.Table.Warming

/-!
Regions stay whole.

A lookup stores a class without all of its region. The other operations reach a table through
its counts alone, and a count that stops half-way has stored the classes of its region from the
smallest ones upwards, each of them behind its own region. So where nothing is looked up, a
table has the whole region of every class that it has (`Bench.regular_run`).
-/

namespace BinaryLambda

open Counting CountTable

/-- The operation is open to all. A lookup is not: it is how a table counts for itself. -/
def Operation.IsPublic : Operation → Prop
  | .lookup _ _ => False
  | _ => True

instance decidableIsPublic : (operation : Operation) → Decidable operation.IsPublic
  | .lookup _ _ => inferInstanceAs (Decidable False)
  | .ask _ | .openSequence _ _ | .askSequence _ _ | .openCursor _ _ | .advance _ _ =>
      inferInstanceAs (Decidable True)

namespace CountTable

/-- A table with whole regions whose classes have no bound and no size below zero. -/
structure Regular (type : IntType) (table : CountTable) : Prop extends Warmed type table where
  nonneg : ∀ key ∈ table, 0 ≤ key.bound ∧ 0 ≤ key.size

theorem regular_fresh (type : IntType) : Regular type (fresh type) where
  toWarmed := warmed_fresh type
  nonneg key member := absurd member (not_mem_fresh type key)

theorem Regular.mem_of_reaches {type : IntType} {table : CountTable} (regular : Regular type table)
    {key other : Key} (member : key ∈ table) (sizeNonneg : 0 ≤ other.size)
    (sizeLe : other.size ≤ key.size) (boundLe : key.bound ≤ other.bound)
    (boundUpper : other.bound ≤ key.bound + (key.size - other.size) / 2) : other ∈ table := by
  obtain ⟨bound, size⟩ := key
  obtain ⟨boundNonneg, keySizeNonneg⟩ := regular.nonneg _ member
  obtain ⟨bound, rfl⟩ := Int.eq_ofNat_of_zero_le boundNonneg
  obtain ⟨size, rfl⟩ := Int.eq_ofNat_of_zero_le keySizeNonneg
  exact regular.hasRegions member other
    (mem_region.mpr ⟨sizeNonneg, sizeLe, boundLe, boundUpper⟩)

end CountTable

namespace Counting

/-- A count keeps the regions whole, also if it stops at a class that does not fit. -/
theorem regular_count {type : IntType} {table : CountTable} (regular : Regular type table)
    (bound size : Nat) : Regular type ((count bound size).on table).2 where
  toWarmed := warmed_count regular.toWarmed bound size
  nonneg key member := by
    rcases (mem_count_iff_of_warmed regular.toWarmed bound size).mp member with old | new
    · exact regular.nonneg key old
    · obtain ⟨sizeNonneg, _, boundLe, _⟩ := mem_region.mp (mem_warmed.mp new).1
      exact ⟨by omega, sizeNonneg⟩

end Counting

namespace Bench

theorem regular_run {type : IntType} {bench : Bench} (regular : Regular type bench.table)
    {operations : List Operation} (isPublic : ∀ operation ∈ operations, operation.IsPublic) :
    Regular type (bench.run operations).table := by
  have counts : ∀ bound size table, Regular type table →
      Regular type ((count bound size).on table).2 :=
    fun bound size _ regular => regular_count regular bound size
  exact kept_run counts (fun bound size looksUp => (isPublic _ looksUp).elim) regular

end Bench

/-- Whatever a table has been used for, unless for a lookup, and whether or not this failed
half-way: with a class it has all classes of at most that size and at least that bound, where
the bound may be larger by one for every two bits less. -/
theorem region_closed (type : IntType) {operations : List Operation}
    (isPublic : ∀ operation ∈ operations, operation.IsPublic) :
    let table := ((Bench.fresh type).run operations).table
    ∀ key ∈ table, ∀ other : Key, 0 ≤ other.size → other.size ≤ key.size →
      key.bound ≤ other.bound → other.bound ≤ key.bound + (key.size - other.size) / 2 →
        other ∈ table := by
  intro table key member other
  have regular : Regular type table := @Bench.regular_run type (Bench.fresh type)
    (regular_fresh type) operations isPublic
  exact regular.mem_of_reaches member

/-- On a table of eight bits on which a count has overflowed, the class of the closed terms of
size 8 comes with that of the terms of size 2 that may use three variables. -/
theorem region_closed_after_overflow :
    let earlier : List Operation :=
      [.ask (.sample (.int 1) (.int 6) (Generator.cyclic 7)), .ask (.count (.int 0) (.int 17))]
    let operations := earlier ++ [.openSequence (.int (0 : Nat)) (.int (8 : Nat))]
    let table := ((Bench.fresh (.signed .w8)).run operations).table
    (∀ operation ∈ operations, operation.IsPublic) ∧
      ⟨(0 : Nat), (8 : Nat)⟩ ∈ table ∧ ⟨3, 2⟩ ∈ table := by
  intro earlier operations table
  have member : ⟨(0 : Nat), (8 : Nat)⟩ ∈ table := 
    Bench.mem_run_fresh _ earlier (IntType.fits_closed_eight _)
  have isPublic : ∀ operation ∈ operations, operation.IsPublic := by decide
  have reached := region_closed (.signed .w8) isPublic _ member ⟨3, 2⟩
  exact ⟨isPublic, member, reached (by decide) (by decide) (by decide) (by decide)⟩

end BinaryLambda
