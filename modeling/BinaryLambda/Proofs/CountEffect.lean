import BinaryLambda.Proofs.Overflow
import BinaryLambda.Proofs.Table.Warming
import Mathlib.Tactic.Ring

/-!
What a count does to a table.

Counting a class that is in the table reads it and does nothing else. Counting another one
goes through its region from the smallest sizes upwards, and stops at the first class that
does not fit the type (`IsFirstMisfit`): the overflow shows this class, and the table gains
the classes before it. If there is no such class, it gains the whole region, which has a
quarter of the square of two more than the size in classes, rounded down (`length_region`).
-/

namespace BinaryLambda

open Counting CountTable

structure IsFirstMisfit (type : IntType) (bound size : Nat) (key : Key) : Prop where
  mem : key ∈ region bound size
  misfit : ¬ type.Fits key.classSize
  fits_of_earlier : ∀ other ∈ region bound size, other.Earlier key → type.Fits other.classSize

theorem exists_isFirstMisfit {type : IntType} {bound size : Nat}
    (misfits : ∃ key ∈ region bound size, ¬ type.Fits key.classSize) :
    ∃ key, IsFirstMisfit type bound size key := by
  have found : ((region bound size).find? fun key => ¬ type.Fits key.classSize).isSome := by
    simpa using misfits
  obtain ⟨key, key_eq⟩ := Option.isSome_iff_exists.mp found
  obtain ⟨misfit, before, after, region_eq, fit⟩ := List.find?_eq_some_iff_append.mp key_eq
  refine ⟨key, by simp [region_eq], by simpa using misfit, fun other member earlier => ?_⟩
  have isBefore := (mem_before_iff_earlier region_eq).mpr ⟨member, earlier⟩
  simpa using fit other isBefore

/-- If all that is read for a class fits, whether it is counted depends on itself alone. -/
theorem checkedClassSize_of_reads {type : IntType} {key : Key}
    (fit : ∀ other, key.Reads other → type.Fits other.classSize) :
    checkedClassSize type key.bound key.size =
      if type.Fits key.classSize then .ok key.classSize
      else .error (.overflow (.int key.bound) key.size type key.classSize) := by
  have counted : ∀ other, key.Reads other →
      checkedClassSize type other.bound other.size = .ok other.classSize :=
    fun other reads => checkedClassSize_of_fits (fit other reads)
  rw [checkedClassSize, recurrence_eq_ok]
  · rfl
  · intro smaller lt size_eq
    exact counted ⟨key.bound + 1, smaller⟩ (Key.reads_bodies size_eq)
  · intro smaller lt sizeLe
    exact counted ⟨key.bound, smaller⟩ (Key.reads_parts sizeLe)

namespace IsFirstMisfit

variable {type : IntType} {bound size : Nat} {key : Key}
  (first : IsFirstMisfit type bound size key)

include first

theorem exists_region_eq :
    ∃ before after, region bound size = before ++ key :: after ∧
      ∀ other ∈ before, type.Fits other.classSize := by
  obtain ⟨before, after, region_eq⟩ := List.append_of_mem first.mem
  refine ⟨before, after, region_eq, fun other isBefore => ?_⟩
  obtain ⟨member, earlier⟩ := (mem_before_iff_earlier region_eq).mp isBefore
  exact first.fits_of_earlier other member earlier

theorem checkedCount_eq : checkedCount type bound size =
    .error (.overflow (.int key.bound) key.size type key.classSize) := by
  obtain ⟨before, after, region_eq, fit⟩ := first.exists_region_eq
  refine bind_eq_error_iff.mpr (.inl (forM_eq_error_iff.mpr
    ⟨before, key, after, region_eq, fun other isBefore => ?_, ?_⟩))
  · exact discard_eq_ok_iff.mpr ⟨_, checkedClassSize_of_fits (fit other isBefore)⟩
  · -- What is read for it comes before it, so the overflow is its own and not one of these.
    have counted := checkedClassSize_of_reads fun other reads =>
      fit other (readBefore_region bound size before key after region_eq other reads)
    rw [if_neg first.misfit] at counted
    exact discard_eq_error_iff.mpr counted

theorem mem_warmed_iff {other : Key} :
    other ∈ warmed type bound size ↔ other ∈ region bound size ∧ other.Earlier key := by
  obtain ⟨before, after, region_eq, fit⟩ := first.exists_region_eq
  have warmed_eq : warmed type bound size = before := by
    rw [warmed, region_eq,
      List.takeWhile_append_of_pos fun other isBefore => decide_eq_true (fit other isBefore),
      List.takeWhile_cons_of_neg (by simpa using first.misfit), List.append_nil]
  rw [warmed_eq]
  exact mem_before_iff_earlier region_eq

end IsFirstMisfit

namespace Counting

/-- What a table has for a class after another one has been counted that it did not have. -/
theorem get?_count_of_not_mem {table : CountTable} (sound : table.Sound) {bound size : Nat}
    (absent : ⟨bound, size⟩ ∉ table) (key : Key) :
    ((count bound size).on table).2.get? key =
      if key ∈ warmed table.intType bound size then some key.classSize else table.get? key := by
  have after := (count_answers bound size table sound.soundFrom).2
  rw [after.sound.get?_eq, sound.get?_eq]
  simp only [mem_count_iff sound absent]
  by_cases isWarmed : key ∈ warmed table.intType bound size
  · simp [isWarmed]
  · simp [isWarmed]

end Counting

open Finset in
theorem sum_halves (size : Nat) :
    ∑ smaller ∈ range (size + 1), (smaller / 2 + 1) = (size + 2) ^ 2 / 4 := by
  induction size with
  | zero => rfl
  | succ size inductionHypothesis =>
      rw [sum_range_succ, inductionHypothesis]
      -- The squares of even and odd numbers leave 0 and 1 when they are divided by 4.
      obtain ⟨half, rfl | rfl⟩ := Nat.even_or_odd' size
      · have even : (2 * half + 2) ^ 2 = 4 * (half ^ 2 + 2 * half + 1) := by ring
        have odd : (2 * half + 1 + 2) ^ 2 = 4 * (half ^ 2 + 3 * half + 2) + 1 := by ring
        omega
      · have odd : (2 * half + 1 + 2) ^ 2 = 4 * (half ^ 2 + 3 * half + 2) + 1 := by ring
        have even : (2 * half + 1 + 1 + 2) ^ 2 = 4 * (half ^ 2 + 4 * half + 4) := by ring
        omega

theorem length_region (bound size : Nat) : (region bound size).length = (size + 2) ^ 2 / 4 := by
  rw [← sum_halves, ← Finset.sum_range_reflect, ← sum_map_range]
  simp [region, List.length_flatMap]

theorem nodup_region (bound size : Nat) : (region bound size).Nodup := by
  apply (pairwise_region bound size).imp
  rintro first _ earlier rfl
  exact earlier.asymm earlier

theorem CountTable.size_eq_length {table : CountTable} {keys : List Key} (nodup : keys.Nodup)
    (mem_iff : ∀ key, key ∈ table ↔ key ∈ keys) : table.size = keys.length := by
  have distinct : table.entries.keys.Nodup := by
    apply Std.TreeMap.distinct_keys.imp
    rintro first _ ne rfl
    exact ne Std.ReflCmp.compare_self
  have same : table.entries.keys.Perm keys :=
    (List.perm_ext_iff_of_nodup distinct nodup).mpr fun key =>
      Std.TreeMap.mem_keys.trans (mem_iff key)
  rw [CountTable.size, ← Std.TreeMap.length_keys]
  exact same.length_eq

theorem size_count_fresh {type : IntType} {bound size total : Nat}
    (counted : ((count bound size).on (.fresh type)).1 = .ok total) :
    ((count bound size).on (.fresh type)).2.size = (size + 2) ^ 2 / 4 := by
  rw [(count_answers bound size _ (sound_fresh type).soundFrom).1] at counted
  obtain ⟨rfl, fits⟩ := checkedCount_eq_ok_iff.mp counted
  rw [← length_region bound size]
  apply size_eq_length (nodup_region bound size)
  intro key
  rw [mem_count_iff (sound_fresh type) (not_mem_fresh type _), warmed_eq_region fits]
  exact or_iff_right (not_mem_fresh type key)

/-- Whatever a table has been used for, a count of a class that it has leaves it as it is. A
count of another class adds its region, if all of it fits the type, and else the classes
before the first that does not fit, which the overflow shows. -/
theorem count_effect (type : IntType) (operations : List Operation) (bound size : Nat) :
    let table := ((Bench.fresh type).run operations).table
    let outcome := (count bound size).on table
    (∀ key, key ∈ region bound size ↔
      0 ≤ key.size ∧ key.size ≤ size ∧
        bound ≤ key.bound ∧ key.bound ≤ bound + (size - key.size) / 2) ∧
    (if ⟨bound, size⟩ ∈ table then
      outcome = (.ok (classSize bound size), table)
    else if ∀ key ∈ region bound size, type.Fits key.classSize then
      outcome.1 = .ok (classSize bound size) ∧
        ∀ key, outcome.2.get? key =
          if key ∈ region bound size then some key.classSize else table.get? key
    else
      ∃ first, IsFirstMisfit type bound size first ∧
        outcome.1 = .error (.overflow (.int first.bound) first.size type first.classSize) ∧
        ∀ key, outcome.2.get? key =
          if key ∈ region bound size ∧ key.Earlier first then some key.classSize
          else table.get? key) ∧
    ∀ total, ((count bound size).on (.fresh type)).1 = .ok total →
      ((count bound size).on (.fresh type)).2.size = (size + 2) ^ 2 / 4 := by
  intro table outcome
  have from_ : SoundFrom (.fresh type) table := Bench.soundFrom_run_fresh type operations
  have type_eq : table.intType = type := Bench.intType_run_fresh type operations
  have answered : outcome.1 = checkedCount type bound size :=
    (count_answers bound size table from_).1
  have added : ⟨bound, size⟩ ∉ table → ∀ key, outcome.2.get? key =
      if key ∈ warmed type bound size then some key.classSize else table.get? key := by
    intro absent key
    rw [← type_eq]
    exact get?_count_of_not_mem from_.sound absent key
  refine ⟨fun key => mem_region, ?_, fun total counted => size_count_fresh counted⟩
  split
  · next member =>
      obtain ⟨value, found⟩ := mem_iff_exists_get?.mp member
      obtain ⟨rfl, _⟩ := from_.sound found
      exact on_count_of_some found
  · next absent =>
      split
      · next fit =>
          have fits : type.Fits (classSize bound size) := fit _ (self_mem_region bound size)
          refine ⟨answered.trans (checkedCount_eq_ok_iff.mpr ⟨rfl, fits⟩), fun key => ?_⟩
          rw [added absent, warmed_eq_region fits]
      · next misfits =>
          push Not at misfits
          obtain ⟨first, isFirst⟩ := exists_isFirstMisfit misfits
          refine ⟨first, isFirst, answered.trans isFirst.checkedCount_eq, fun key => ?_⟩
          rw [added absent]
          exact if_congr isFirst.mem_warmed_iff rfl rfl

/-- On a table of eight bits that has the class of the identity, that class is read and the
134 closed terms of size 17 overflow. The identity alone takes nine entries. -/
theorem count_effect_eight_bits :
    let type := IntType.signed .w8
    let table := ((Bench.fresh type).run
      ([.lookup (-1) 9] ++ [.openSequence (.int (0 : Nat)) (.int (4 : Nat))])).table
    (count 0 4).on table = (.ok 1, table) ∧
      (∃ first, IsFirstMisfit type 0 17 first ∧ ((count 0 17).on table).1 =
        .error (.overflow (.int first.bound) first.size type first.classSize)) ∧
      ((count 0 4).on (.fresh type)).2.size = 9 := by
  intro type table
  have misfit : ¬ type.Fits (classSize (0 : Nat) 17) := by
    rw [classSize_closed_seventeen]
    decide
  have member : ⟨(0 : Nat), (4 : Nat)⟩ ∈ table := 
    Bench.mem_run_fresh type [.lookup (-1) 9] type.fits_closed_four
  have absent : ⟨(0 : Nat), (17 : Nat)⟩ ∉ table := by
    intro member
    have stored := (Bench.soundFrom_run_fresh type _).sound.fits_of_mem member
    rw [Bench.intType_run_fresh] at stored
    exact misfit stored
  obtain ⟨_, read, fresh⟩ := count_effect type
    ([.lookup (-1) 9] ++ [.openSequence (.int (0 : Nat)) (.int (4 : Nat))]) 0 4
  obtain ⟨_, stopped, _⟩ := count_effect type
    ([.lookup (-1) 9] ++ [.openSequence (.int (0 : Nat)) (.int (4 : Nat))]) 0 17
  rw [if_pos member, classSize_closed_four] at read
  rw [if_neg absent, if_neg fun fit => misfit (fit _ (self_mem_region 0 17))] at stopped
  obtain ⟨first, isFirst, overflow, _⟩ := stopped
  refine ⟨read, ⟨first, isFirst, overflow⟩, fresh 1 ?_⟩
  rw [(count_answers 0 4 _ (sound_fresh type).soundFrom).1]
  exact checkedCount_eq_ok_iff.mpr ⟨classSize_closed_four.symm, type.fits_of_le_127 (by decide)⟩

end BinaryLambda
