import BinaryLambda.Proofs.CountedClass
import BinaryLambda.Proofs.Overflow
import BinaryLambda.Table.Export

/-!
The matrix of all counts up to a bound and a size.

The matrix counts each of its classes for itself. The class in its last corner is not the
largest of them, but where it fits the type, they all do (`checkedColumns_eq_ok_iff`). So the
matrix overflows exactly if this class does; otherwise it shows all counts, and the table has
them.
-/

namespace BinaryLambda

open Counting CountTable

/-- The counts of all sizes up to `size`, under one bound after the other up to `bound`, each
within the type. -/
def checkedColumns (type : IntType) (bound size : Nat) : Except Error (List (List Nat)) :=
  (List.range (bound + 1)).mapM fun (smallerBound : Nat) =>
    (List.range (size + 1)).mapM fun (smaller : Nat) => checkedCount type smallerBound smaller

theorem IntType.Fits.of_le {type : IntType} {bound size : Nat}
    (fits : type.Fits (classSize bound size)) {smallerBound smaller : Nat}
    (boundLe : smallerBound ≤ bound) (sizeLe : smaller ≤ size) :
    type.Fits (classSize smallerBound smaller) := by
  have inRegion : ⟨bound, smaller⟩ ∈ region bound size := by
    simp only [mem_region]
    omega
  exact (fits.of_mem_region inRegion).mono (classSize_mono (Int.ofNat_le.mpr boundLe) smaller)

theorem checkedColumns_eq_ok_iff {type : IntType} {bound size : Nat} {columns : List (List Nat)} :
    checkedColumns type bound size = .ok columns ↔
      columns = (List.range (bound + 1)).map (fun (smallerBound : Nat) =>
        (List.range (size + 1)).map (classSize smallerBound)) ∧
      type.Fits (classSize bound size) := by
  have ofColumn : ∀ smallerBound column,
      (List.range (size + 1)).mapM (checkedCount type smallerBound) = .ok column ↔
        column = (List.range (size + 1)).map (classSize smallerBound) ∧
          ∀ smaller ∈ List.range (size + 1), type.Fits (classSize smallerBound smaller) :=
    fun smallerBound column => mapM_eq_ok_iff fun smaller value =>
      checkedCount_eq_ok_iff.trans (and_congr_right fun same => by rw [same])
  rw [checkedColumns, mapM_eq_ok_iff ofColumn]
  refine and_congr_right fun _ => ?_
  simp only [List.mem_range, Nat.lt_succ_iff]
  constructor
  · exact fun fit => fit bound (Nat.le_refl bound) size (Nat.le_refl size)
  · exact fun fits smallerBound boundLe smaller sizeLe => fits.of_le boundLe sizeLe

theorem isMisfit_of_checkedColumns {type : IntType} {bound size : Nat} {error : Error}
    (failed : checkedColumns type bound size = .error error) : IsMisfit type error := by
  obtain ⟨_, _, columnFailed⟩ := exists_of_mapM_eq_error failed
  obtain ⟨_, _, countFailed⟩ := exists_of_mapM_eq_error columnFailed
  exact isMisfit_of_checkedCount countFailed

/-- The frame of a matrix: a row for each size, and behind the sizes a column for each bound. -/
def Frame.dense (type : IntType) (bound size : Nat) (number : (bound size : Nat) → Nat) :
    Frame where
  columns := ("n", .position) :: (List.range (bound + 1)).map fun smallerBound =>
    ("m=" ++ toString smallerBound, .count type)
  rows := (List.range (size + 1)).map fun (smaller : Nat) =>
    some (smaller : Int) :: (List.range (bound + 1)).map fun smallerBound =>
      some (number smallerBound smaller : Int)

def Frame.ofColumns (type : IntType) (bound size : Nat) (columns : List (List Nat)) : Frame :=
  let names := (List.range (bound + 1)).map fun smallerBound => "m=" ++ toString smallerBound
  { columns := ("n", .position) :: names.map fun name => (name, .count type)
    rows := (List.range (size + 1)).map fun (smaller : Nat) =>
      some (smaller : Int) :: columns.map fun column => some (column.getD smaller 0 : Int) }

theorem Frame.ofColumns_eq_dense (type : IntType) (bound size : Nat)
    (number : (bound size : Nat) → Nat) :
    Frame.ofColumns type bound size ((List.range (bound + 1)).map fun smallerBound =>
      (List.range (size + 1)).map (number smallerBound)) = .dense type bound size number := by
  rw [Frame.ofColumns, Frame.dense, List.map_map]
  congr 1
  apply List.map_congr_left
  intro smaller inRange
  rw [List.mem_range] at inRange
  simp [List.getD_eq_getElem?_getD, inRange]

def CellType.Holds : CellType → Int → Prop
  | position, value => IsPosition value
  | count type, value => 0 ≤ value ∧ type.Fits value.toNat

/-- Each row has a cell for each column, and the cells hold what is in them. -/
def Frame.IsHeld (frame : Frame) : Prop :=
  ∀ row ∈ frame.rows,
    List.Forall₂ (fun column cell => ∀ value ∈ cell, column.2.Holds value) frame.columns row

theorem Frame.isHeld_dense {type : IntType} {bound size : Nat} (sizeLt : size < 2 ^ 32)
    {number : (bound size : Nat) → Nat}
    (fit : ∀ smallerBound ≤ bound, ∀ smaller ≤ size, type.Fits (number smallerBound smaller)) :
    (Frame.dense type bound size number).IsHeld := by
  intro row member
  obtain ⟨smaller, smallerLt, rfl⟩ := List.mem_map.mp member
  rw [List.mem_range, Nat.lt_succ_iff] at smallerLt
  refine .cons ?_ ?_
  · rintro _ ⟨⟩
    exact ⟨Int.natCast_nonneg smaller, by omega⟩
  · rw [List.forall₂_map_left_iff, List.forall₂_map_right_iff, List.forall₂_same]
    intro smallerBound inRange
    rw [List.mem_range, Nat.lt_succ_iff] at inRange
    rintro _ ⟨⟩
    exact ⟨Int.natCast_nonneg _, fit smallerBound inRange smaller smallerLt⟩

namespace Counting

variable {start : CountTable}

theorem matrix_eq (bound size : Nat) : matrix bound size = (do
    let columns ← (List.range (bound + 1)).mapM fun smallerBound => countSizes smallerBound size
    return .ofColumns (← get).intType bound size columns) := rfl

theorem columns_answers (bound size : Nat) :
    Answers (SoundFrom start)
      ((List.range (bound + 1)).mapM fun smallerBound => countSizes smallerBound size)
      (checkedColumns start.intType bound size) :=
  .mapM_of_forall fun smallerBound _ => .mapM_of_forall fun smaller _ =>
    count_answers smallerBound smaller

section Matrix

variable {table : CountTable} (from_ : SoundFrom start table) {bound size : Nat}

include from_

theorem on_matrix_of_fits (fits : start.intType.Fits (classSize bound size)) :
    ((matrix bound size).on table).1 =
      .ok (.dense start.intType bound size fun bound size => classSize bound size) := by
  obtain ⟨answered, after⟩ := columns_answers bound size table from_
  rw [checkedColumns_eq_ok_iff.mpr ⟨rfl, fits⟩] at answered
  rw [matrix_eq, on_bind_of_ok answered, intType_eq_of_le after.le, ← Frame.ofColumns_eq_dense]
  rfl

theorem on_matrix_of_not_fits (misfit : ¬ start.intType.Fits (classSize bound size)) :
    ∃ error, ((matrix bound size).on table).1 = .error error ∧ error.kind = .numericOverflow := by
  have answered := (columns_answers bound size table from_).1
  have refused : ∀ columns, checkedColumns start.intType bound size ≠ .ok columns :=
    fun columns counted => misfit (checkedColumns_eq_ok_iff.mp counted).2
  obtain ⟨error, counted, kind_eq⟩ :=
    exists_overflow_of_isMisfit (fun _ => isMisfit_of_checkedColumns) refused
  rw [matrix_eq, on_bind_of_error (answered.trans counted)]
  exact ⟨error, rfl, kind_eq⟩

end Matrix

theorem countSizes_gathers (bound size : Nat) :
    Gathers (fun key => ∃ smaller ∈ List.range (size + 1), key = ⟨bound, (smaller : Nat)⟩)
      (countSizes bound size) :=
  .mapM fun smaller => count_gathers bound smaller

theorem matrix_gathers (bound size : Nat) :
    Gathers (fun key => ∃ smallerBound ≤ bound, ∃ smaller ≤ size,
      key = ⟨(smallerBound : Nat), (smaller : Nat)⟩) (matrix bound size) := by
  have columns : Gathers
      (fun key => ∃ smallerBound ∈ List.range (bound + 1), ∃ smaller ∈ List.range (size + 1),
        key = ⟨(smallerBound : Nat), (smaller : Nat)⟩)
      ((List.range (bound + 1)).mapM fun smallerBound => countSizes smallerBound size) :=
    .mapM fun smallerBound => countSizes_gathers smallerBound size
  have shown : ∀ columns : List (List Nat), Gathers (fun _ => False)
      (do return Frame.ofColumns (← get).intType bound size columns) :=
    fun columns start table from_ => ⟨from_, fun _ _ _ => False.elim⟩
  rw [matrix_eq]
  apply (columns.bind shown).mono
  rintro _ ⟨smallerBound, boundLe, smaller, sizeLe, rfl⟩
  exact .inl ⟨smallerBound, List.mem_range.mpr (Nat.lt_succ_of_le boundLe), smaller,
    List.mem_range.mpr (Nat.lt_succ_of_le sizeLe), rfl⟩

end Counting

/-- Whatever a table has been used for, its matrix overflows exactly if the count in the last
corner does not fit the type. Otherwise it shows all counts up to the bound and the size, in
cells that can hold them; no row falls, and the table has the counts. -/
theorem matrix_exact (type : IntType) (operations : List Operation) (bound : Nat) {size : Nat}
    (sizeLt : size < 2 ^ 32) :
    let table := ((Bench.fresh type).run operations).table
    let outcome := (matrix bound size).on table
    ∃ total : (bound size : Nat) → Nat,
      (∀ smallerBound smaller,
        (count smallerBound smaller).onFresh .unbounded = .ok (total smallerBound smaller)) ∧
      if type.Fits (total bound size) then
        outcome.1 = .ok (.dense type bound size total) ∧
        (Frame.dense type bound size total).IsHeld ∧
        (∀ smaller ≤ size, ((List.range (bound + 1)).map fun smallerBound =>
          total smallerBound smaller).Pairwise (· ≤ ·)) ∧
        ∀ smallerBound ≤ bound, ∀ smaller ≤ size,
          outcome.2.get? ⟨smallerBound, smaller⟩ = some (total smallerBound smaller)
      else
        ∃ error, outcome.1 = .error error ∧ error.kind = .numericOverflow := by
  intro table outcome
  have from_ : ClosedFrom (.fresh type) table := Bench.closedFrom_run_fresh type operations
  refine ⟨fun bound size => classSize bound size, count_onFresh_unbounded, ?_⟩
  split
  · next fits =>
      have shown : outcome.1 = _ := on_matrix_of_fits from_.toSoundFrom fits
      obtain ⟨after, gathered⟩ := matrix_gathers bound size _ _ from_
      refine ⟨shown, Frame.isHeld_dense sizeLt ?_, fun smaller _ => ?_, ?_⟩
      · exact fun smallerBound boundLe smaller sizeLe => fits.of_le boundLe sizeLe
      · rw [List.pairwise_map]
        apply List.pairwise_lt_range.imp
        exact fun boundLt => classSize_mono (Int.ofNat_le.mpr boundLt.le) smaller
      · intro smallerBound boundLe smaller sizeLe
        have member : ⟨smallerBound, smaller⟩ ∈ outcome.2 :=
          gathered _ shown _ ⟨smallerBound, boundLe, smaller, sizeLe, rfl⟩
        rw [after.sound.get?_eq, if_pos member]
        rfl
  · next misfit => exact on_matrix_of_not_fits from_.toSoundFrom misfit

/-- After an overflow and a lookup, the counts under two bounds are shown up to the size 15. One
more row overflows, though its first cell would fit. -/
theorem matrix_exact_eight_bits :
    let table := ((Bench.fresh (.signed .w8)).run
      [.ask (.count (.int 0) (.int 17)), .lookup (-1) 9]).table
    (15 < 2 ^ 32 ∧ ∃ number : (bound size : Nat) → Nat,
      number 0 15 ≤ number 1 15 ∧ number 1 15 = 118 ∧
      ((matrix 1 15).on table).1 = .ok (.dense (.signed .w8) 1 15 number) ∧
      ((matrix 1 15).on table).2.get? ⟨(1 : Nat), (15 : Nat)⟩ = some 118) ∧
    16 < 2 ^ 32 ∧ ∃ error, ((matrix 1 16).on table).1 = .error error ∧
      error.kind = .numericOverflow := by
  intro table
  have size_eq : classSize (1 : Nat) 15 = 118 :=
    @classSize_eq_of_getElem? (1 : Nat) 8 15 118 (by decide) (by decide +kernel)
  have larger_eq : classSize (1 : Nat) 16 = 254 :=
    @classSize_eq_of_getElem? (1 : Nat) 9 16 254 (by decide) (by decide +kernel)
  obtain ⟨number, counts, shown⟩ := matrix_exact (.signed .w8)
    [.ask (.count (.int 0) (.int 17)), .lookup (-1) 9] 1 (show 15 < 2 ^ 32 by decide)
  obtain ⟨larger, largerCounts, overflow⟩ := matrix_exact (.signed .w8)
    [.ask (.count (.int 0) (.int 17)), .lookup (-1) 9] 1 (show 16 < 2 ^ 32 by decide)
  have number_eq : number 1 15 = 118 :=
    (eq_classSize_of_count_onFresh (counts 1 15)).trans size_eq
  have larger_number_eq : larger 1 16 = 254 :=
    (eq_classSize_of_count_onFresh (largerCounts 1 16)).trans larger_eq
  rw [number_eq, if_pos (IntType.fits_of_le_127 _ (by decide))] at shown
  rw [larger_number_eq, if_neg (by decide)] at overflow
  obtain ⟨answered, _, ascends, stored⟩ := shown
  have corner := stored 1 (Nat.le_refl 1) 15 (Nat.le_refl 15)
  rw [number_eq] at corner
  have row := List.pairwise_cons.mp (ascends 15 (Nat.le_refl 15))
  refine ⟨⟨by decide, number, ?_, number_eq, answered, corner⟩, by decide, overflow⟩
  exact row.1 (number 1 15) (List.mem_cons_self ..)

end BinaryLambda
