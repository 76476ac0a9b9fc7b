import BinaryLambda.Proofs.ClassSize.Region
import BinaryLambda.Proofs.Table.Computation
import Mathlib.Order.Defs.PartialOrder

/-!
Sound tables and their growth.

A table is sound if each of its entries is the number of terms in its class and
fits the type of the table. Tables of one type are ordered by their entries: a later
table has all that an earlier one had.
-/

namespace BinaryLambda

namespace CountTable

theorem mem_iff_exists_get? {table : CountTable} {key : Key} :
    key ∈ table ↔ ∃ value, table.get? key = some value := by
  rw [mem_iff_isSome_get?, Option.isSome_iff_exists]

theorem get?_eq_none_iff {table : CountTable} {key : Key} :
    table.get? key = none ↔ key ∉ table := by
  rw [mem_iff_isSome_get?, Option.not_isSome_iff_eq_none]

@[simp] theorem not_mem_fresh (type : IntType) (key : Key) : key ∉ fresh type :=
  get?_eq_none_iff.mp (get?_fresh type key)

def Sound (table : CountTable) : Prop :=
  ∀ ⦃key value⦄, table.get? key = some value →
    value = key.classSize ∧ table.intType.Fits value

theorem sound_fresh (type : IntType) : (fresh type).Sound := by
  intro key value found
  simp at found

theorem Sound.fits_of_mem {table : CountTable} (sound : table.Sound) {key : Key}
    (member : key ∈ table) : table.intType.Fits key.classSize := by
  obtain ⟨value, found⟩ := mem_iff_exists_get?.mp member
  obtain ⟨rfl, fits⟩ := sound found
  exact fits

theorem Sound.get?_eq {table : CountTable} (sound : table.Sound) (key : Key) :
    table.get? key = if key ∈ table then some key.classSize else none := by
  cases found : table.get? key with
  | none => rw [if_neg (get?_eq_none_iff.mp found)]
  | some value =>
      rw [if_pos (mem_iff_exists_get?.mpr ⟨value, found⟩), (sound found).1]

/-- The later table has all entries of the earlier one. -/
instance : Preorder CountTable where
  le earlier later := earlier.intType = later.intType ∧
    ∀ ⦃key value⦄, earlier.get? key = some value → later.get? key = some value
  le_refl table := ⟨rfl, fun _ _ found => found⟩
  le_trans _ _ _ first second :=
    ⟨first.1.trans second.1, fun _ _ found => second.2 (first.2 found)⟩

theorem intType_eq_of_le {earlier later : CountTable} (le : earlier ≤ later) :
    earlier.intType = later.intType :=
  le.1

theorem get?_of_le {earlier later : CountTable} (le : earlier ≤ later) {key : Key} {value : Nat}
    (found : earlier.get? key = some value) : later.get? key = some value :=
  le.2 found

theorem mem_of_le {earlier later : CountTable} (le : earlier ≤ later) {key : Key}
    (member : key ∈ earlier) : key ∈ later := by
  obtain ⟨value, found⟩ := mem_iff_exists_get?.mp member
  exact mem_iff_exists_get?.mpr ⟨value, get?_of_le le found⟩

theorem fresh_le_iff {type : IntType} {table : CountTable} :
    fresh type ≤ table ↔ table.intType = type := by
  constructor
  · intro le
    exact (intType_eq_of_le le).symm
  · rintro rfl
    exact ⟨rfl, by simp⟩

structure SoundFrom (start table : CountTable) : Prop where
  sound : table.Sound
  le : start ≤ table

theorem Sound.soundFrom {table : CountTable} (sound : table.Sound) : SoundFrom table table :=
  ⟨sound, le_refl table⟩

theorem Sound.soundFrom_fresh {table : CountTable} (sound : table.Sound) :
    SoundFrom (fresh table.intType) table :=
  ⟨sound, fresh_le_iff.mpr rfl⟩

theorem SoundFrom.insert {start table : CountTable} (from_ : SoundFrom start table) {key : Key}
    (fits : table.intType.Fits key.classSize) :
    SoundFrom start (table.insert key key.classSize) := by
  constructor
  · intro other value found
    rw [get?_insert] at found
    split at found
    · next same =>
        subst same
        cases found
        exact ⟨rfl, fits⟩
    · exact from_.sound found
  · refine le_trans from_.le ⟨rfl, ?_⟩
    intro other value found
    rw [get?_insert]
    split
    · next same =>
        subst same
        rw [(from_.sound found).1]
    · exact found

end CountTable

end BinaryLambda
