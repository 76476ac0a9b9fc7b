import BinaryLambda.Proofs.Table.Warming

/-!
Filling a region takes no recursion.

A count is worked out from others that are looked up, and a lookup that misses works out a count
itself. But in a region every class comes behind all that the recurrence reads for it. So on the
way through a region every lookup hits, whatever else is in the table and whether or not it is
right (`mem_of_reads_of_filled`), and it makes no difference what a lookup would do about a class
that is missing (`forM_fillBy`).
-/

namespace BinaryLambda

open Counting CountTable

theorem Key.ReadBefore.of_append {keys rest : List Key} (readBefore : ReadBefore (keys ++ rest)) :
    ReadBefore keys := by
  intro before key after keys_eq
  exact readBefore before key (after ++ rest) (by simp [keys_eq])

namespace Counting

/-- Looks up a class without working out its count, which is an error if it is missing. -/
def lookupOnly (missing : Error) (key : Key) : Counting Nat := do
  match ← cached? key with
  | some value => return value
  | none => throw missing

theorem finds_lookupOnly (missing : Error) : Finds (lookupOnly missing) := by
  intro table key value found
  rw [lookupOnly, on_bind_of_ok (congrArg Prod.fst (on_cached? key table)), found]
  rfl

def countBy (find : Key → Counting Nat) (bound size : Nat) : Counting Nat := do
  match ← cached? ⟨bound, size⟩ with
  | some value => return value
  | none =>
      (region bound size).forM (fillBy find)
      return (← cached? ⟨bound, size⟩).getD 0

theorem countBy_lookup : countBy (fun key => lookup key.bound key.size) = count := rfl

section Lists

variable {table : CountTable} {keys : List Key} (readBefore : Key.ReadBefore keys)

include readBefore

theorem mem_of_forM_fill_eq_ok_of_readBefore (filled : ((keys.forM fill).on table).1 = .ok ()) :
    ∀ key ∈ keys, key ∈ ((keys.forM fill).on table).2 := by
  induction keys using List.reverseRecOn with
  | nil => simp
  | append_singleton keys last inductionHypothesis =>
      rw [forM_concat] at filled ⊢
      obtain ⟨_, before, ran⟩ := on_bind_eq_ok filled
      rw [ran] at filled ⊢
      have held := inductionHypothesis readBefore.of_append before
      have read : ∀ other, last.Reads other → other ∈ ((keys.forM fill).on table).2 :=
        fun other reads => held other (readBefore keys last [] rfl other reads)
      intro key member
      rcases List.mem_append.mp member with earlier | isLast
      · exact mem_fill_of_mem read (held key earlier)
      · obtain rfl := List.mem_singleton.mp isLast
        exact mem_of_fill_eq_ok filled

end Lists

/-- Filling classes in order, all that is read for one is in the table when its turn comes. -/
theorem mem_of_reads_of_filled {table : CountTable} {before after : List Key} {key : Key}
    (readBefore : Key.ReadBefore (before ++ key :: after))
    (filled : ((before.forM fill).on table).1 = .ok ()) {other : Key} (reads : key.Reads other) :
    other ∈ ((before.forM fill).on table).2 :=
  mem_of_forM_fill_eq_ok_of_readBefore readBefore.of_append filled other
    (readBefore before key after rfl other reads)

section Finds

variable {find : Key → Counting Nat} (finds : Finds find)

include finds

/-- Filling classes in order, it makes no difference what becomes of lookups that miss. -/
theorem forM_fillBy {keys : List Key} (readBefore : Key.ReadBefore keys) (table : CountTable) :
    (keys.forM (fillBy find)).on table = (keys.forM fill).on table := by
  induction keys using List.reverseRecOn with
  | nil => rfl
  | append_singleton keys last inductionHypothesis =>
      have same := inductionHypothesis readBefore.of_append
      rw [forM_concat, forM_concat]
      refine on_bind_congr same fun _ filled => ?_
      rw [same] at filled ⊢
      have read := fun other => @mem_of_reads_of_filled table keys [] last readBefore filled other
      rw [on_fillBy read finds, ← on_fillBy read finds_lookup, fillBy_lookup]

theorem on_countBy (table : CountTable) (bound size : Nat) :
    (countBy find bound size).on table = (count bound size).on table := by
  rw [← countBy_lookup, countBy, countBy]
  refine on_bind_congr rfl fun entry _ => ?_
  cases entry with
  | some value => rfl
  | none =>
      apply on_bind_congr
      · exact forM_fillBy finds (readBefore_region bound size) table
      · exact fun _ _ => rfl

end Finds
end Counting

/-- Whatever is in a table, and whether or not it is right: when a count gets to a class of its
region, all that the recurrence reads for the class is in the table, and it is counted with
nothing stored on the way. So what a lookup does about a class that is missing makes no
difference to a count, and it need not recurse. -/
theorem warming_flat (table : CountTable) (bound size : Nat) :
    (∀ before key after current, region bound size = before ++ key :: after →
      (before.forM fill).on table = (.ok (), current) →
        (∀ other, key.Reads other → other ∈ current) ∧
          ∀ find, Finds find →
            (recountBy find key).on current = (.ok (current.recount key), current)) ∧
    ∀ find, Finds find → (countBy find bound size).on table = (count bound size).on table := by
  refine ⟨fun before key after current region_eq ran => ?_,
    fun find finds => on_countBy finds table bound size⟩
  have filled : ((before.forM fill).on table).1 = .ok () := congrArg Prod.fst ran
  have readBefore := readBefore_region bound size
  rw [region_eq] at readBefore
  have read := fun other => @mem_of_reads_of_filled table before after key readBefore filled other
  rw [ran] at read
  exact ⟨read, fun find finds => on_recountBy read finds⟩

/-- A table that has a wrong count for one class: it is used as it stands, and no lookup misses. -/
theorem warming_flat_unsound :
    let table := (CountTable.fresh (.signed .w8)).insert ⟨1, 2⟩ 77
    ((count 0 4).on table).1 = .ok 77 := by
  intro table
  have answered : ((countBy (lookupOnly .rankZero) 0 4).on table).1 = .ok 77 := by
    decide +kernel
  rwa [(warming_flat table 0 4).2 _ (finds_lookupOnly .rankZero)] at answered

end BinaryLambda
