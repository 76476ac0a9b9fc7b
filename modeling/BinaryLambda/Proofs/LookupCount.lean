import BinaryLambda.Proofs.Overflow
import BinaryLambda.Proofs.Table.Warming

/-!
Looking a class up and counting it come to the same.

A lookup follows the recurrence and stores the classes that it meets; a count fills the whole
region of the class first. Both succeed exactly if the class fits the type, and then the
lookup has met no class outside of the region (`lookup_storesOnly`), so that the count leaves
all that the lookup leaves.
-/

namespace BinaryLambda

open Counting CountTable

namespace Counting

variable {α β : Type}

def StoresOnly (keys : Key → Prop) (computation : Counting α) : Prop :=
  ∀ table key, key ∈ (computation.on table).2 → key ∈ table ∨ keys key

namespace StoresOnly

variable {keys : Key → Prop}

theorem pure (value : α) : StoresOnly keys (Pure.pure value : Counting α) :=
  fun _ _ member => .inl member

theorem bind {computation : Counting α} {next : α → Counting β}
    (first : StoresOnly keys computation) (rest : ∀ value, StoresOnly keys (next value)) :
    StoresOnly keys (computation >>= next) := by
  intro table key member
  cases answered : (computation.on table).1 with
  | error error =>
      rw [on_bind_of_error answered] at member
      exact first table key member
  | ok value =>
      rw [on_bind_of_ok answered] at member
      rcases rest value _ key member with before | stored
      · exact first table key before
      · exact .inr stored

theorem store {key : Key} (isKey : keys key) (value : Nat) :
    StoresOnly keys (Counting.store key value) := by
  intro table other member
  rw [on_store] at member
  split at member
  · rcases mem_insert.mp member with rfl | old
    · exact .inr isKey
    · exact .inl old
  · exact .inl member

end StoresOnly

theorem lookup_storesOnly {keys : Key → Prop}
    (reads : ∀ ⦃key⦄, keys key → ∀ ⦃other⦄, key.Reads other → keys other) {key : Key}
    (isKey : keys key) : StoresOnly keys (lookup key.bound key.size) := by
  induction length : key.size.toNat using Nat.strongRecOn generalizing key with
  | ind length inductionHypothesis =>
      subst length
      have recounts : StoresOnly keys (recount key) := by
        refine recurrence_holds (fun {α} (computation : Counting α) => StoresOnly keys computation)
          .pure .bind ?_ ?_
        · intro smaller lt size_eq
          exact inductionHypothesis smaller lt (reads isKey (Key.reads_bodies size_eq)) rfl
        · intro smaller lt sizeLe
          exact inductionHypothesis smaller lt (reads isKey (Key.reads_parts sizeLe)) rfl
      have computes : StoresOnly keys (compute key.bound key.size) :=
        recounts.bind fun value => (StoresOnly.store isKey value).bind fun _ => .pure value
      intro table other member
      cases found : table.get? key with
      | some value =>
          rw [on_lookup_of_some found] at member
          exact .inl member
      | none =>
          rw [on_lookup_of_none found] at member
          exact computes table other member

/-- What a lookup leaves in a table, a count that succeeds leaves there too. -/
theorem mem_count_of_mem_lookup {table : CountTable} (sound : table.Sound) {bound size : Nat}
    (fits : table.intType.Fits (classSize bound size)) {key : Key}
    (member : key ∈ ((lookup bound size).on table).2) : key ∈ ((count bound size).on table).2 := by
  cases found : table.get? ⟨bound, size⟩ with
  | some value =>
      -- The class may be there without its region, but then neither of them stores anything.
      rw [on_lookup_of_some found] at member
      rw [on_count_of_some found]
      exact member
  | none =>
      have stays := lookup_storesOnly
        (fun _ inRegion _ reads => (mem_region_of_reads inRegion reads).1)
        (self_mem_region bound size)
      rw [mem_count_iff sound (get?_eq_none_iff.mp found), warmed_eq_region fits]
      exact stays table key member

end Counting

theorem exists_lookup_overflow_of_not_fits {type : IntType} {bound size : Nat}
    (misfit : ¬ type.Fits (classSize bound size)) :
    ∃ error, checkedClassSize type bound size = .error error ∧
      error.kind = .numericOverflow := by
  apply exists_overflow_of_isMisfit fun _ => isMisfit_of_checkedClassSize
  intro value looked
  obtain ⟨rfl, fits⟩ := checkedClassSize_eq_ok_iff.mp looked
  exact misfit fits

/-- Whatever a table has been used for, a class is counted and looked up with the same count,
and the count leaves every entry that the lookup leaves; or the class does not fit the type,
and both overflow. -/
theorem lookup_count_agree (type : IntType) (operations : List Operation) (bound size : Nat) :
    let table := ((Bench.fresh type).run operations).table
    let counted := (count bound size).on table
    let found := (lookup bound size).on table
    ∃ total, (count bound size).onFresh .unbounded = .ok total ∧
      if type.Fits total then
        counted.1 = .ok total ∧ found.1 = .ok total ∧
          ∀ key value, found.2.get? key = some value → counted.2.get? key = some value
      else
        (∃ error, counted.1 = .error error ∧ error.kind = .numericOverflow) ∧
          ∃ error, found.1 = .error error ∧ error.kind = .numericOverflow := by
  intro table counted found
  have from_ : SoundFrom (.fresh type) table := Bench.soundFrom_run_fresh type operations
  obtain ⟨countAnswered, countFrom⟩ := count_answers bound size table from_
  obtain ⟨lookupAnswered, lookupFrom⟩ := lookup_answers bound size table from_
  refine ⟨classSize bound size, count_onFresh_unbounded bound size, ?_⟩
  split
  · next fits =>
      refine ⟨countAnswered.trans (checkedCount_eq_ok_iff.mpr ⟨rfl, fits⟩),
        lookupAnswered.trans (checkedClassSize_eq_ok_iff.mpr ⟨rfl, fits⟩), ?_⟩
      intro key value stored
      have member : key ∈ counted.2 := by
        apply mem_count_of_mem_lookup from_.sound
        · rwa [Bench.intType_run_fresh]
        · exact mem_iff_exists_get?.mpr ⟨value, stored⟩
      rw [countFrom.sound.get?_eq, if_pos member, (lookupFrom.sound stored).1]
  · next misfit =>
      obtain ⟨error, overflows, kind_eq⟩ := exists_overflow_of_not_fits misfit
      obtain ⟨other, looked, other_kind⟩ := exists_lookup_overflow_of_not_fits misfit
      exact ⟨⟨error, countAnswered.trans overflows, kind_eq⟩,
        other, lookupAnswered.trans looked, other_kind⟩

/-- After an overflow and a lookup, the largest closed class that fits eight bits is counted and
looked up, and the next one overflows either way. -/
theorem lookup_count_agree_eight_bits :
    let table := ((Bench.fresh (.signed .w8)).run
      [.ask (.count (.int 0) (.int 17)), .lookup (-1) 9]).table
    (((count 0 16).on table).1 = .ok 101 ∧ ((lookup (0 : Nat) (16 : Nat)).on table).1 = .ok 101 ∧
      ((count 0 16).on table).2.get? ⟨(0 : Nat), (16 : Nat)⟩ = some 101) ∧
    (∃ error, ((count 0 17).on table).1 = .error error ∧ error.kind = .numericOverflow) ∧
      ∃ error, ((lookup (0 : Nat) (17 : Nat)).on table).1 = .error error ∧
        error.kind = .numericOverflow := by
  intro table
  have size_eq : classSize (0 : Nat) 16 = 101 :=
    @classSize_eq_of_getElem? (0 : Nat) 9 16 101 (by decide) (by decide +kernel)
  obtain ⟨total, counted, agree⟩ := lookup_count_agree (.signed .w8)
    [.ask (.count (.int 0) (.int 17)), .lookup (-1) 9] 0 16
  obtain ⟨larger, largerCounted, overflow⟩ := lookup_count_agree (.signed .w8)
    [.ask (.count (.int 0) (.int 17)), .lookup (-1) 9] 0 17
  obtain rfl : total = 101 := (eq_classSize_of_count_onFresh counted).trans size_eq
  obtain rfl : larger = 134 := (eq_classSize_of_count_onFresh largerCounted).trans
    classSize_closed_seventeen
  rw [if_pos (IntType.fits_of_le_127 _ (by decide))] at agree
  rw [if_neg (by decide)] at overflow
  obtain ⟨countAnswered, lookupAnswered, stays⟩ := agree
  obtain ⟨value, stored⟩ := mem_iff_exists_get?.mp (mem_of_lookup_eq_ok lookupAnswered)
  have from_ : SoundFrom (.fresh (.signed .w8)) table := Bench.soundFrom_run_fresh _ _
  have sound := (lookup_answers (0 : Nat) (16 : Nat) table from_).2.sound
  obtain rfl : value = 101 := (sound stored).1.trans size_eq
  exact ⟨⟨countAnswered, lookupAnswered, stays _ _ stored⟩, overflow⟩

end BinaryLambda
