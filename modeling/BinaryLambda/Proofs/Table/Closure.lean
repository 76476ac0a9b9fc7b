import BinaryLambda.Proofs.Table.Counts

/-!
Tables that are closed under what the recurrence reads.

A count is stored only after the counts that the recurrence reads for it. So every entry
of a table has those entries beside it, also if counting stopped half-way
(`lookup_gathers`, `closedFrom_count`).
-/

namespace BinaryLambda

def Key.Reads (key other : Key) : Prop :=
  0 ≤ other.size ∧
    (other.bound = key.bound + 1 ∧ other.size + 2 = key.size ∨
      other.bound = key.bound ∧ other.size + 2 ≤ key.size)

theorem Key.reads_bodies {key : Key} {body : Nat} (size_eq : body + 2 = key.size.toNat) :
    key.Reads ⟨key.bound + 1, body⟩ :=
  ⟨Int.natCast_nonneg body, .inl ⟨rfl, by simp only; omega⟩⟩

theorem Key.reads_parts {key : Key} {part : Nat} (sizeLe : part + 2 ≤ key.size.toNat) :
    key.Reads ⟨key.bound, part⟩ :=
  ⟨Int.natCast_nonneg part, .inr ⟨rfl, by simp only; omega⟩⟩

namespace CountTable

theorem mem_insert {table : CountTable} {key other : Key} {value : Nat} :
    other ∈ table.insert key value ↔ other = key ∨ other ∈ table := by
  rw [mem_iff_isSome_get?, mem_iff_isSome_get?, get?_insert]
  by_cases same : key = other
  · simp [same]
  · simp [same, Ne.symm same]

def Closed (table : CountTable) : Prop :=
  ∀ ⦃key⦄, key ∈ table → ∀ ⦃other⦄, key.Reads other → other ∈ table

theorem closed_fresh (type : IntType) : (fresh type).Closed := by
  intro key member
  exact absurd member (not_mem_fresh type key)

theorem Closed.insert {table : CountTable} (closed : table.Closed) {key : Key} {value : Nat}
    (read : ∀ other, key.Reads other → other ∈ table) : (table.insert key value).Closed := by
  intro stored member other reads
  apply mem_insert.mpr
  rcases mem_insert.mp member with rfl | old
  · exact .inr (read other reads)
  · exact .inr (closed old reads)

section Classes

variable {table : CountTable} (closed : table.Closed) {bound body : Nat}

include closed

theorem Closed.bodies (member : ⟨bound, (body + 2 : Nat)⟩ ∈ table) :
    ⟨(bound + 1 : Nat), body⟩ ∈ table :=
  closed member ⟨Int.natCast_nonneg body, .inl ⟨by simp, by simp⟩⟩

theorem Closed.parts (member : ⟨bound, (body + 2 : Nat)⟩ ∈ table) {part : Nat}
    (partLe : part ≤ body) : ⟨bound, part⟩ ∈ table :=
  closed member ⟨Int.natCast_nonneg part, .inr ⟨rfl, by simpa using partLe⟩⟩

end Classes

structure ClosedFrom (start table : CountTable) : Prop extends SoundFrom start table where
  closed : table.Closed

theorem ClosedFrom.self {start table : CountTable} (from_ : ClosedFrom start table) :
    ClosedFrom table table :=
  ⟨from_.sound.soundFrom, from_.closed⟩

theorem closedFrom_fresh (type : IntType) : ClosedFrom (fresh type) (fresh type) :=
  ⟨(sound_fresh type).soundFrom, closed_fresh type⟩

end CountTable

namespace Counting

open CountTable

variable {α β : Type}

/-- The computation keeps a table closed, and where it succeeds the table has the keys. -/
def Gathers (keys : Key → Prop) (computation : Counting α) : Prop :=
  ∀ start table, ClosedFrom start table → ClosedFrom start (computation.on table).2 ∧
    ∀ value, (computation.on table).1 = .ok value →
      ∀ key, keys key → key ∈ (computation.on table).2

namespace Gathers

theorem pure (value : α) : Gathers (fun _ => False) (Pure.pure value : Counting α) :=
  fun _ _ from_ => ⟨from_, fun _ _ _ => False.elim⟩

theorem mono {keys fewer : Key → Prop} {computation : Counting α}
    (gathers : Gathers keys computation) (le : ∀ key, fewer key → keys key) :
    Gathers fewer computation := by
  intro start table from_
  obtain ⟨after, gathered⟩ := gathers start table from_
  exact ⟨after, fun value answered key member => gathered value answered key (le key member)⟩

theorem congr {keys : Key → Prop} {computation : Counting α} {other : Counting β}
    (gathers : Gathers keys computation)
    (same : ∀ table, (other.on table).2 = (computation.on table).2 ∧
      ∀ value, (other.on table).1 = .ok value →
        ∃ value, (computation.on table).1 = .ok value) : Gathers keys other := by
  intro start table from_
  obtain ⟨after, gathered⟩ := gathers start table from_
  obtain ⟨table_eq, answers⟩ := same table
  rw [table_eq]
  refine ⟨after, fun value answered => ?_⟩
  obtain ⟨result, computed⟩ := answers value answered
  exact gathered result computed

theorem bind {firstKeys restKeys : Key → Prop} {computation : Counting α} {next : α → Counting β}
    (first : Gathers firstKeys computation) (rest : ∀ value, Gathers restKeys (next value)) :
    Gathers (fun key => firstKeys key ∨ restKeys key) (computation >>= next) := by
  intro start table from_
  obtain ⟨middle, firstGathered⟩ := first start table from_
  cases answered : (computation.on table).1 with
  | error error =>
      rw [on_bind_of_error answered]
      exact ⟨middle, fun _ failed => by cases failed⟩
  | ok value =>
      rw [on_bind_of_ok answered]
      obtain ⟨after, restGathered⟩ := rest value start _ middle
      refine ⟨after, fun result computed key member => ?_⟩
      rcases member with early | late
      -- Tables only grow, so what the first part has gathered is still there.
      · have grown := (rest value _ _ middle.self).1.le
        exact mem_of_le grown (firstGathered value answered key early)
      · exact restGathered result computed key late

theorem foldlM {values : List α} {step : β → α → Counting β} {start : β}
    {keys : α → Key → Prop} (each : ∀ total value, Gathers (keys value) (step total value)) :
    Gathers (fun key => ∃ value ∈ values, keys value key) (values.foldlM step start) := by
  induction values generalizing start with
  | nil => exact (pure start).mono (by simp)
  | cons value values inductionHypothesis =>
      rw [List.foldlM_cons]
      apply (bind (each start value) fun total => inductionHypothesis).mono
      simp

theorem mapM {values : List α} {computation : α → Counting β} {keys : α → Key → Prop}
    (each : ∀ value, Gathers (keys value) (computation value)) :
    Gathers (fun key => ∃ value ∈ values, keys value key) (values.mapM computation) := by
  induction values with
  | nil => exact (pure []).mono (by simp)
  | cons value values inductionHypothesis =>
      rw [List.mapM_cons]
      apply (bind (each value) fun _ => bind inductionHypothesis fun _ => pure _).mono
      simp

theorem forM {values : List α} {computation : α → Counting PUnit} {keys : α → Key → Prop}
    (each : ∀ value, Gathers (keys value) (computation value)) :
    Gathers (fun key => ∃ value ∈ values, keys value key) (values.forM computation) := by
  induction values with
  | nil => exact (pure ()).mono (by simp)
  | cons value values inductionHypothesis =>
      rw [List.forM]
      apply (bind (each value) fun _ => inductionHypothesis).mono
      simp

end Gathers

def recount (key : Key) : Counting Nat :=
  recurrence (variableCount key.bound key.size.toNat) key.size.toNat
    (fun smaller _ => lookup (key.bound + 1) smaller)
    (fun smaller _ => lookup key.bound smaller)

theorem compute_eq (key : Key) : compute key.bound key.size = (do
    let value ← recount key
    store key value
    return value) := rfl

theorem recount_gathers {key : Key}
    (bodies : ∀ smaller : Nat, smaller < key.size.toNat →
      Gathers (· = ⟨key.bound + 1, smaller⟩) (lookup (key.bound + 1) smaller))
    (parts : ∀ smaller : Nat, smaller < key.size.toNat →
      Gathers (· = ⟨key.bound, smaller⟩) (lookup key.bound smaller)) :
    Gathers key.Reads (recount key) := by
  obtain ⟨bound, size⟩ := key
  simp only [recount] at bodies parts ⊢
  generalize length_eq : size.toNat = length at bodies parts
  match length with
  | 0 =>
      apply (Gathers.pure 0).mono
      rintro key ⟨nonneg, reads⟩
      simp only at reads
      omega
  | 1 =>
      apply (Gathers.pure 0).mono
      rintro key ⟨nonneg, reads⟩
      simp only at reads
      omega
  | body + 2 =>
      have applications : ∀ total : Nat, ∀ func : Fin (body + 1),
          Gathers (· = ⟨bound, func.val⟩) (do
            let funcs ← lookup bound func
            let args ← lookup bound (body - func : Nat)
            return total + funcs * args) := by
        intro total func
        apply ((parts func (by omega)).bind fun funcs =>
          (parts (body - func) (by omega)).bind fun args => .pure _).mono
        exact fun key same => .inl same
      apply ((bodies body (by omega)).bind fun abstractions =>
        (Gathers.foldlM applications).bind fun total => .pure _).mono
      rintro ⟨otherBound, otherSize⟩ ⟨nonneg, ⟨bound_eq, size_eq⟩ | ⟨bound_eq, sizeLe⟩⟩
      · simp only at bound_eq size_eq nonneg ⊢
        left
        rw [Key.mk.injEq]
        omega
      · simp only at bound_eq sizeLe nonneg ⊢
        right
        left
        refine ⟨⟨otherSize.toNat, by omega⟩, List.mem_finRange _, ?_⟩
        rw [Key.mk.injEq]
        exact ⟨bound_eq, (Int.toNat_of_nonneg nonneg).symm⟩

/-- A class that is looked up is in the table, with all that is read for it. -/
theorem lookup_gathers (key : Key) : Gathers (· = key) (lookup key.bound key.size) := by
  induction length : key.size.toNat using Nat.strongRecOn generalizing key with
  | ind length inductionHypothesis =>
      subst length
      have reads : Gathers key.Reads (recount key) := by
        apply recount_gathers
        · exact fun smaller lt => inductionHypothesis smaller lt ⟨key.bound + 1, smaller⟩ rfl
        · exact fun smaller lt => inductionHypothesis smaller lt ⟨key.bound, smaller⟩ rfl
      intro start table from_
      refine ⟨⟨(lookup_answers key.bound key.size table from_.toSoundFrom).2, ?_⟩, ?_⟩
      · cases found : table.get? key with
        | some value =>
            rw [on_lookup_of_some found]
            exact from_.closed
        | none =>
            obtain ⟨middle, gathered⟩ := reads start table from_
            rw [on_lookup_of_none found, compute_eq]
            cases counted : ((recount key).on table).1 with
            | error error =>
                rw [on_bind_of_error counted]
                exact middle.closed
            | ok value =>
                rw [on_bind_of_ok counted, on_bind_pure, on_store]
                split
                · exact middle.closed.insert (gathered value counted)
                · exact middle.closed
      · rintro value answered _ rfl
        exact mem_of_lookup_eq_ok answered

theorem fill_gathers (key : Key) : Gathers (· = key) (fill key) := by
  apply (lookup_gathers key).congr
  intro table
  rw [on_fill, on_discard]
  exact ⟨rfl, fun _ filled => discard_eq_ok_iff.mp filled⟩

theorem closedFrom_count {start table : CountTable} (from_ : ClosedFrom start table)
    (bound size : Nat) : ClosedFrom start ((count bound size).on table).2 := by
  refine ⟨(count_answers bound size table from_.toSoundFrom).2, ?_⟩
  cases found : table.get? ⟨bound, size⟩ with
  | some value =>
      rw [on_count_of_some found]
      exact from_.closed
  | none =>
      have warmed : ClosedFrom start ((warm bound size).on table).2 :=
        (Gathers.forM fill_gathers start table from_).1
      cases ran : ((warm bound size).on table).1 with
      | error error =>
          rw [on_count_of_warm_eq_error found ran]
          exact warmed.closed
      | ok _ =>
          rw [on_count_of_warm_eq_ok found ran]
          exact warmed.closed

theorem count_gathers (bound size : Nat) : Gathers (· = ⟨bound, size⟩) (count bound size) := by
  intro start table from_
  refine ⟨closedFrom_count from_ bound size, ?_⟩
  rintro value counted _ rfl
  exact mem_iff_exists_get?.mpr ⟨value, get?_of_count_eq_ok from_.sound counted⟩

end Counting
end BinaryLambda
