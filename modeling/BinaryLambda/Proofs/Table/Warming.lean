import BinaryLambda.Proofs.Table.Recount
import Mathlib.Data.List.Induction
import Mathlib.Data.List.TakeWhile

/-!
What counting stores.

A region is filled from the smallest sizes upwards, so that the recurrence finds all that
it reads in the table (`on_recount_of_reads`) and only the class itself is stored. So
counting a class that is not in the table stores the classes of its region up to the first
one that does not fit the type, and no other (`mem_count_iff`). A table that is used for
counting alone has the whole region of every class that it has (`warmed_count`).
-/

namespace BinaryLambda

def Key.Earlier (first second : Key) : Prop :=
  first.size < second.size ∨ first.size = second.size ∧ first.bound < second.bound

instance (first second : Key) : Decidable (first.Earlier second) :=
  inferInstanceAs (Decidable (_ ∨ _))

theorem Key.Earlier.asymm {first second : Key} (earlier : first.Earlier second) :
    ¬ second.Earlier first := by
  unfold Key.Earlier at *
  omega

theorem Key.Earlier.trans {first second third : Key} (earlier : first.Earlier second)
    (later : second.Earlier third) : first.Earlier third := by
  unfold Key.Earlier at *
  omega

theorem pairwise_region (bound size : Nat) : (region bound size).Pairwise Key.Earlier := by
  rw [region, List.pairwise_flatMap]
  constructor
  · intro smaller _
    rw [List.pairwise_map]
    apply List.pairwise_lt_range.imp
    intro lambdas more fewer
    exact .inr ⟨rfl, Int.ofNat_lt.mpr (Nat.add_lt_add_left fewer bound)⟩
  · apply List.pairwise_lt_range.imp
    intro smaller larger sizeLt first inFirst second inSecond
    obtain ⟨_, _, rfl⟩ := List.mem_map.mp inFirst
    obtain ⟨_, _, rfl⟩ := List.mem_map.mp inSecond
    exact .inl (Int.ofNat_lt.mpr sizeLt)

/-- What the recurrence reads for a class of a region is in the region, and earlier. -/
theorem mem_region_of_reads {bound size : Nat} {key other : Key} (member : key ∈ region bound size)
    (reads : key.Reads other) : other ∈ region bound size ∧ other.Earlier key := by
  obtain ⟨nonneg, reads⟩ := reads
  rw [mem_region] at member ⊢
  refine ⟨by omega, .inl ?_⟩
  omega

theorem mem_region_of_mem_region {bound size innerBound innerSize : Nat} {key : Key}
    (member : ⟨innerBound, innerSize⟩ ∈ region bound size)
    (inner : key ∈ region innerBound innerSize) :
    key ∈ region bound size ∧
      (key = ⟨innerBound, innerSize⟩ ∨ key.Earlier ⟨innerBound, innerSize⟩) := by
  rcases key with ⟨keyBound, keySize⟩
  rw [mem_region] at member inner
  simp only [mem_region, Key.mk.injEq, Key.Earlier] at member inner ⊢
  omega

/-- In a list in order, the values before the first that fails a test are those that pass
it together with all before them. -/
theorem mem_takeWhile_iff_of_pairwise {α : Type} {before : α → α → Prop} {test : α → Bool}
    (asymm : ∀ first second, before first second → ¬ before second first) {values : List α}
    (inOrder : values.Pairwise before) {value : α} :
    value ∈ values.takeWhile test ↔
      value ∈ values ∧ ∀ other ∈ values, other = value ∨ before other value → test other := by
  induction values with
  | nil => simp
  | cons head values inductionHypothesis =>
      obtain ⟨headBefore, restInOrder⟩ := List.pairwise_cons.mp inOrder
      by_cases passes : test head = true
      · rw [List.takeWhile_cons_of_pos passes, List.mem_cons, inductionHypothesis restInOrder]
        constructor
        · rintro (rfl | ⟨member, passed⟩)
          · refine ⟨List.mem_cons_self, fun other otherMember first => ?_⟩
            rcases List.mem_cons.mp otherMember with rfl | later
            · exact passes
            · rcases first with rfl | earlier
              · exact passes
              · exact absurd earlier (asymm _ _ (headBefore other later))
          · refine ⟨List.mem_cons_of_mem head member, fun other otherMember first => ?_⟩
            rcases List.mem_cons.mp otherMember with rfl | later
            · exact passes
            · exact passed other later first
        · rintro ⟨member, passed⟩
          rcases List.mem_cons.mp member with rfl | later
          · exact .inl rfl
          · exact .inr ⟨later, fun other otherMember =>
              passed other (List.mem_cons_of_mem head otherMember)⟩
      · rw [List.takeWhile_cons_of_neg passes]
        constructor
        · intro impossible
          cases impossible
        · rintro ⟨member, passed⟩
          rcases List.mem_cons.mp member with rfl | later
          · exact absurd (passed value List.mem_cons_self (.inl rfl)) passes
          · exact absurd (passed head List.mem_cons_self (.inr (headBefore value later))) passes

/-- The classes of a region before the first that does not fit the type. -/
def warmed (type : IntType) (bound size : Nat) : List Key :=
  (region bound size).takeWhile fun key => type.Fits key.classSize

theorem mem_warmed {type : IntType} {bound size : Nat} {key : Key} :
    key ∈ warmed type bound size ↔ key ∈ region bound size ∧
      ∀ other ∈ region bound size, other = key ∨ other.Earlier key →
        type.Fits other.classSize := by
  rw [warmed, mem_takeWhile_iff_of_pairwise (fun _ _ => Key.Earlier.asymm)
    (pairwise_region bound size)]
  simp

theorem warmed_eq_region {type : IntType} {bound size : Nat}
    (fits : type.Fits (classSize bound size)) : warmed type bound size = region bound size := by
  apply List.takeWhile_eq_self_iff.mpr
  intro key member
  exact decide_eq_true (fits.of_mem_region member)

def Key.ReadBefore (keys : List Key) : Prop :=
  ∀ before key after, keys = before ++ key :: after → ∀ other, key.Reads other → other ∈ before

theorem mem_before_iff_earlier {bound size : Nat} {before after : List Key} {key other : Key}
    (region_eq : region bound size = before ++ key :: after) :
    other ∈ before ↔ other ∈ region bound size ∧ other.Earlier key := by
  have inOrder := pairwise_region bound size
  rw [region_eq] at inOrder ⊢
  obtain ⟨_, fromKey, across⟩ := List.pairwise_append.mp inOrder
  constructor
  · exact fun isBefore =>
      ⟨List.mem_append_left _ isBefore, across other isBefore key List.mem_cons_self⟩
  · rintro ⟨member, earlier⟩
    rcases List.mem_append.mp member with isBefore | isAfter
    · exact isBefore
    · rcases List.mem_cons.mp isAfter with rfl | later
      · exact absurd earlier earlier.asymm
      · exact absurd earlier ((List.pairwise_cons.mp fromKey).1 other later).asymm

theorem readBefore_region (bound size : Nat) : Key.ReadBefore (region bound size) := by
  intro before key after region_eq other reads
  have member : key ∈ region bound size := by simp [region_eq]
  exact (mem_before_iff_earlier region_eq).mpr (mem_region_of_reads member reads)

namespace Counting

open CountTable

theorem eq_classSize_of_recount {table : CountTable} (sound : table.Sound) {key : Key}
    {value : Nat} (counted : ((recount key).on table).1 = .ok value) : value = key.classSize := by
  have answers : Answers (SoundFrom table) (recount key)
      (recurrence (variableCount key.bound key.size.toNat) key.size.toNat
        (fun smaller _ => checkedClassSize table.intType (key.bound + 1) smaller)
        (fun smaller _ => checkedClassSize table.intType key.bound smaller)) :=
    recurrence_answers (fun smaller _ => lookup_answers (key.bound + 1) smaller)
      (fun smaller _ => lookup_answers key.bound smaller)
  rw [(answers table sound.soundFrom).1] at counted
  exact eq_classSize_of_recurrence (fun smaller _ _ counted => (checkedClassSize_sound counted).1)
    (fun smaller _ _ counted => (checkedClassSize_sound counted).1) counted

theorem on_fill_of_reads {table : CountTable} (sound : table.Sound) {key : Key}
    (absent : key ∉ table) (read : ∀ other, key.Reads other → other ∈ table) :
    (fill key).on table = if table.intType.Fits key.classSize then
        (.ok (), table.insert key key.classSize)
      else
        (.error (.overflow (.int key.bound) key.size table.intType key.classSize), table) := by
  have ran := on_recount_of_reads read
  have counted := congrArg Prod.fst ran
  rw [on_fill_of_not_mem absent, on_discard, compute_eq, on_bind_of_ok counted, ran, on_bind_pure,
    on_store, eq_classSize_of_recount sound counted]
  split
  · rfl
  · rfl

theorem mem_fill_iff {table : CountTable} (sound : table.Sound) {key : Key}
    (read : ∀ other, key.Reads other → other ∈ table) {other : Key} :
    other ∈ ((fill key).on table).2 ↔
      other ∈ table ∨ other = key ∧ table.intType.Fits key.classSize := by
  by_cases member : key ∈ table
  · obtain ⟨value, found⟩ := mem_iff_exists_get?.mp member
    rw [on_fill_of_mem member]
    constructor
    · exact .inl
    · rintro (old | ⟨rfl, _⟩)
      · exact old
      · exact member
  · rw [on_fill_of_reads sound member read]
    by_cases fits : table.intType.Fits key.classSize
    · simp [fits, mem_insert, or_comm]
    · simp [fits]

theorem forM_fill_eq_ok_iff {table : CountTable} (sound : table.Sound) {keys : List Key} :
    ((keys.forM fill).on table).1 = .ok () ↔
      ∀ key ∈ keys, table.intType.Fits key.classSize := by
  rw [(forM_fill_answers keys table sound.soundFrom).1, forM_eq_ok_iff]
  refine forall_congr' fun key => imp_congr_right fun _ => ?_
  rw [discard_eq_ok_iff]
  simp only [checkedClassSize_eq_ok_iff, exists_eq_left]
  rfl

theorem forM_concat (computation : Key → Counting Unit) (keys : List Key) (last : Key) :
    (keys ++ [last]).forM computation = (do keys.forM computation; computation last) := by
  simp [List.forM_eq_forM]

theorem mem_forM_fill_iff {table : CountTable} (sound : table.Sound) {keys : List Key}
    (readBefore : Key.ReadBefore keys) (key : Key) :
    key ∈ ((keys.forM fill).on table).2 ↔ key ∈ table ∨
      key ∈ keys.takeWhile fun key => table.intType.Fits key.classSize := by
  -- From the end, so that the table before the last class is known.
  induction keys using List.reverseRecOn generalizing key with
  | nil => simp
  | append_singleton keys last inductionHypothesis =>
      have before := inductionHypothesis fun before key after keys_eq =>
        readBefore before key (after ++ [last]) (by simp [keys_eq])
      rw [forM_concat]
      by_cases fit : ∀ key ∈ keys, table.intType.Fits key.classSize
      · have middle := (forM_fill_answers keys table sound.soundFrom).2
        have all : ∀ key ∈ keys, decide (table.intType.Fits key.classSize) = true :=
          fun key member => decide_eq_true (fit key member)
        simp only [List.takeWhile_eq_self_iff.mpr all] at before
        have read : ∀ other, last.Reads other → other ∈ ((keys.forM fill).on table).2 :=
          fun other reads => (before other).mpr (.inr (readBefore keys last [] rfl other reads))
        rw [on_bind_of_ok ((forM_fill_eq_ok_iff sound).mpr fit), mem_fill_iff middle.sound read,
          before, ← intType_eq_of_le middle.le, List.takeWhile_append_of_pos all, List.mem_append,
          or_assoc]
        by_cases lastFits : table.intType.Fits last.classSize
        · simp [lastFits]
        · simp [lastFits]
      -- Filling stops before the last class, and so does the list of those that fit.
      · cases filled : ((keys.forM fill).on table).1 with
        | ok _ => exact absurd ((forM_fill_eq_ok_iff sound).mp filled) fit
        | error error =>
            have stops : ¬ ∀ key ∈ keys, decide (table.intType.Fits key.classSize) = true := by
              simpa using fit
            rw [on_bind_of_error filled, before, List.takeWhile_append, if_neg]
            intro length_eq
            exact stops (List.takeWhile_eq_self_iff.mp
              ((List.takeWhile_prefix _).eq_of_length length_eq))

/-- Counting a class that is not in the table stores its region up to the first class that
does not fit. -/
theorem mem_count_iff {table : CountTable} (sound : table.Sound) {bound size : Nat}
    (absent : ⟨bound, size⟩ ∉ table) {key : Key} :
    key ∈ ((count bound size).on table).2 ↔
      key ∈ table ∨ key ∈ warmed table.intType bound size := by
  have warming : key ∈ ((warm bound size).on table).2 ↔ _ :=
    mem_forM_fill_iff sound (readBefore_region bound size) key
  rw [warmed, ← warming]
  have none_found : table.get? ⟨bound, size⟩ = none := get?_eq_none_iff.mpr absent
  cases ran : ((warm bound size).on table).1 with
  | error error => rw [on_count_of_warm_eq_error none_found ran]
  | ok _ => rw [on_count_of_warm_eq_ok none_found ran]

end Counting

namespace CountTable

def HasRegions (table : CountTable) : Prop :=
  ∀ ⦃bound size : Nat⦄, ⟨bound, size⟩ ∈ table → ∀ key ∈ region bound size, key ∈ table

/-- A sound table of the type, with whole regions. A table is so if it is used for counting
alone; a lookup may store a class without the rest of its region. -/
structure Warmed (type : IntType) (table : CountTable) : Prop
    extends SoundFrom (fresh type) table where
  hasRegions : table.HasRegions

theorem warmed_fresh (type : IntType) : Warmed type (fresh type) where
  toSoundFrom := (sound_fresh type).soundFrom
  hasRegions bound size member := absurd member (not_mem_fresh type ⟨bound, size⟩)

end CountTable

namespace Counting

open CountTable

section Warmed

variable {type : IntType} {table : CountTable} (isWarmed : Warmed type table)

include isWarmed

theorem intType_eq_of_warmed : table.intType = type :=
  fresh_le_iff.mp isWarmed.le

/-- What counting a class adds to a table depends on the class and the type alone. -/
theorem mem_count_iff_of_warmed (bound size : Nat) {key : Key} :
    key ∈ ((count bound size).on table).2 ↔ key ∈ table ∨ key ∈ warmed type bound size := by
  by_cases member : ⟨bound, size⟩ ∈ table
  · obtain ⟨value, found⟩ := mem_iff_exists_get?.mp member
    have fits : type.Fits (classSize bound size) :=
      intType_eq_of_warmed isWarmed ▸ isWarmed.sound.fits_of_mem member
    rw [on_count_of_some found, warmed_eq_region fits]
    constructor
    · exact .inl
    · rintro (old | inRegion)
      · exact old
      · exact isWarmed.hasRegions member key inRegion
  · rw [mem_count_iff isWarmed.sound member, intType_eq_of_warmed isWarmed]

theorem warmed_count (bound size : Nat) : Warmed type ((count bound size).on table).2 where
  toSoundFrom := (count_answers bound size table isWarmed.toSoundFrom).2
  hasRegions innerBound innerSize member key inner := by
    have mem_iff {key : Key} := @mem_count_iff_of_warmed type table isWarmed bound size key
    rw [mem_iff] at member ⊢
    rcases member with old | new
    · exact .inl (isWarmed.hasRegions old key inner)
    · obtain ⟨inRegion, fit⟩ := mem_warmed.mp new
      obtain ⟨keyInRegion, notLater⟩ := mem_region_of_mem_region inRegion inner
      refine .inr (mem_warmed.mpr ⟨keyInRegion, fun other otherMember first => ?_⟩)
      apply fit other otherMember
      rcases first with rfl | earlier
      · exact notLater
      · rcases notLater with rfl | keyEarlier
        · exact .inr earlier
        · exact .inr (earlier.trans keyEarlier)

end Warmed

end Counting
end BinaryLambda
