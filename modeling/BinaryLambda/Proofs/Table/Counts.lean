import BinaryLambda.Proofs.ClassSize.Checked
import BinaryLambda.Proofs.Table.Soundness

/-!
What counting answers on a sound table.

Which classes are in a sound table already makes no difference to an answer: a
lookup answers what the recurrence gives without a table under the same type
(`lookup_answers`), and a count what it gives for the region of the class in order
(`count_answers`). Both leave the table sound and keep all that it had.

Ranking and unranking in a class count it and the classes that its terms are made of, so they
are at work without a failure where these are ready (`Ready`). On sound tables of a type the
classes that fit the type are (`ready_of_fits`).
-/

namespace BinaryLambda
namespace Counting

open CountTable

variable {start : CountTable}

theorem store_answers (key : Key) :
    Answers (SoundFrom start) (store key key.classSize)
      (if start.intType.Fits key.classSize then .ok ()
        else .error (.overflow (.int key.bound) key.size start.intType key.classSize)) := by
  intro table sound
  rw [on_store, ← intType_eq_of_le sound.le]
  split
  · next fits =>
      rw [intType_eq_of_le sound.le] at fits
      exact ⟨rfl, sound.insert fits⟩
  · exact ⟨rfl, sound⟩

theorem recurrence_answers {leaves size : Nat}
    {bodies parts : (smaller : Nat) → smaller < size → Counting Nat}
    {bodyAnswers partAnswers : (smaller : Nat) → smaller < size → Except Error Nat}
    (bodies_answer : ∀ smaller lt,
      Answers (SoundFrom start) (bodies smaller lt) (bodyAnswers smaller lt))
    (parts_answer : ∀ smaller lt,
      Answers (SoundFrom start) (parts smaller lt) (partAnswers smaller lt)) :
    Answers (SoundFrom start) (recurrence leaves size bodies parts)
      (recurrence leaves size bodyAnswers partAnswers) :=
  recurrence_related (Answers (SoundFrom start)) Answers.pure
    (fun first rest => first.bind fun value _ => rest value)
    (fun smaller lt _ => bodies_answer smaller lt) (fun smaller lt _ => parts_answer smaller lt)

def compute (bound size : Int) : Counting Nat := do
  let value ← recurrence (variableCount bound size.toNat) size.toNat
    (fun smaller _ => lookup (bound + 1) smaller)
    (fun smaller _ => lookup bound smaller)
  store ⟨bound, size⟩ value
  return value

theorem on_lookup_of_some {bound size : Int} {table : CountTable} {value : Nat}
    (found : table.get? ⟨bound, size⟩ = some value) :
    (lookup bound size).on table = (.ok value, table) := by
  rw [lookup, on_bind_of_ok (congrArg Prod.fst (on_cached? ⟨bound, size⟩ table)), found]
  rfl

theorem on_lookup_of_none {bound size : Int} {table : CountTable}
    (absent : table.get? ⟨bound, size⟩ = none) :
    (lookup bound size).on table = (compute bound size).on table := by
  rw [lookup, on_bind_of_ok (congrArg Prod.fst (on_cached? ⟨bound, size⟩ table)), absent]
  rfl

theorem on_fill_of_mem {key : Key} {table : CountTable} (member : key ∈ table) :
    (fill key).on table = (.ok (), table) := by
  have read : ((get : Counting CountTable).on table).1 = .ok table := rfl
  rw [fill, on_bind_of_ok read, if_neg (not_not.mpr member)]
  rfl

theorem on_fill_of_not_mem {key : Key} {table : CountTable} (absent : key ∉ table) :
    (fill key).on table = (discard (compute key.bound key.size)).on table := by
  have read : ((get : Counting CountTable).on table).1 = .ok table := rfl
  have split : discard (compute key.bound key.size) = (do
    let value ← recurrence (variableCount key.bound key.size.toNat) key.size.toNat
      (fun smaller _ => lookup (key.bound + 1) smaller)
      (fun smaller _ => lookup key.bound smaller)
    store key value) := by
      simp [compute, discard, Functor.discard, LawfulFunctor.map_const]
  rw [fill, on_bind_of_ok read, if_pos absent, split]
  rfl

theorem on_fill (key : Key) (table : CountTable) :
    (fill key).on table = (discard (lookup key.bound key.size)).on table := by
  by_cases member : key ∈ table
  · obtain ⟨value, found⟩ := mem_iff_exists_get?.mp member
    rw [on_fill_of_mem member, on_discard, on_lookup_of_some found]
    rfl
  · have absent : table.get? ⟨key.bound, key.size⟩ = none :=
      get?_eq_none_iff.mpr member
    rw [on_fill_of_not_mem member, on_discard, on_discard, on_lookup_of_none absent]

theorem lookup_answers (bound size : Int) :
    Answers (SoundFrom start) (lookup bound size)
      (checkedClassSize start.intType bound size) := by
  induction length : size.toNat using Nat.strongRecOn generalizing bound size with
  | ind length inductionHypothesis =>
      subst length
      -- What the table has is right, so only a class that it has not is worked out.
      have computed : Answers (SoundFrom start) (compute bound size)
          (checkedClassSize start.intType bound size) := by
        rw [compute, checkedClassSize]
        refine Answers.bind (recurrence_answers ?_ ?_) fun value counted => ?_
        · exact fun smaller lt => inductionHypothesis smaller lt _ _ (by simp)
        · exact fun smaller lt => inductionHypothesis smaller lt _ _ (by simp)
        · have right : value = Key.classSize ⟨bound, size⟩ :=
            eq_classSize_of_recurrence
              (fun smaller _ _ counted => (checkedClassSize_sound counted).1)
              (fun smaller _ _ counted => (checkedClassSize_sound counted).1) counted
          subst right
          have stored := (@store_answers start ⟨bound, size⟩).bind
            fun _ _ => Answers.pure (Key.classSize ⟨bound, size⟩)
          split
          · next fits =>
              rw [if_pos fits] at stored
              exact stored
          · next misfit =>
              rw [if_neg misfit] at stored
              exact stored
      intro table sound
      cases found : table.get? ⟨bound, size⟩ with
      | none =>
          rw [on_lookup_of_none found]
          exact computed table sound
      | some value =>
          obtain ⟨right, fits⟩ := sound.sound found
          rw [← intType_eq_of_le sound.le] at fits
          rw [on_lookup_of_some found]
          exact ⟨(checkedClassSize_eq_ok_iff.mpr ⟨right, fits⟩).symm, sound⟩

theorem mem_of_lookup_eq_ok {bound size : Int} {table : CountTable} {value : Nat}
    (answered : ((lookup bound size).on table).1 = .ok value) :
    ⟨bound, size⟩ ∈ ((lookup bound size).on table).2 := by
  cases found : table.get? ⟨bound, size⟩ with
  | some value =>
      rw [on_lookup_of_some found]
      exact mem_iff_exists_get?.mpr ⟨value, found⟩
  | none =>
      rw [on_lookup_of_none found, compute] at answered ⊢
      obtain ⟨counted, _, ran⟩ := on_bind_eq_ok answered
      rw [ran] at answered ⊢
      obtain ⟨_, stored, ran⟩ := on_bind_eq_ok answered
      rw [ran, on_pure, mem_iff_isSome_get?]
      rw [on_store] at stored ⊢
      split at stored
      · next fits => simp [if_pos fits, get?_insert]
      · cases stored

theorem fill_answers (key : Key) :
    Answers (SoundFrom start) (fill key)
      (discard (checkedClassSize start.intType key.bound key.size)) := by
  intro table sound
  obtain ⟨answered, soundAfter⟩ := lookup_answers key.bound key.size table sound
  rw [on_fill, on_discard, answered]
  exact ⟨rfl, soundAfter⟩

theorem mem_of_fill_eq_ok {key : Key} {table : CountTable}
    (filled : ((fill key).on table).1 = .ok ()) : key ∈ ((fill key).on table).2 := by
  rw [on_fill, on_discard] at filled ⊢
  obtain ⟨value, answered⟩ := discard_eq_ok_iff.mp filled
  exact mem_of_lookup_eq_ok answered

theorem forM_fill_answers (keys : List Key) :
    Answers (SoundFrom start) (keys.forM fill)
      (keys.forM fun key => discard (checkedClassSize start.intType key.bound key.size)) :=
  Answers.forM fun key _ => fill_answers key

theorem mem_of_forM_fill_eq_ok {keys : List Key} {table : CountTable} (sound : table.Sound)
    (filled : ((keys.forM fill).on table).1 = .ok ()) :
    ∀ key ∈ keys, key ∈ ((keys.forM fill).on table).2 := by
  induction keys generalizing table with
  | nil => simp
  | cons first keys inductionHypothesis =>
      rw [List.forM] at filled ⊢
      obtain ⟨_, firstFilled, ran⟩ := on_bind_eq_ok filled
      rw [ran] at filled ⊢
      have middle := (fill_answers first table sound.soundFrom).2
      have later := (forM_fill_answers keys _ middle.sound.soundFrom).2
      intro key member
      rcases List.mem_cons.mp member with rfl | member
      · exact mem_of_le later.le (mem_of_fill_eq_ok firstFilled)
      · exact inductionHypothesis middle.sound filled key member

theorem on_count_of_some {bound size : Nat} {table : CountTable} {value : Nat}
    (found : table.get? ⟨bound, size⟩ = some value) :
    (count bound size).on table = (.ok value, table) := by
  rw [count, on_bind_of_ok (congrArg Prod.fst (on_cached? ⟨bound, size⟩ table)), found]
  rfl

theorem on_count_of_none {bound size : Nat} {table : CountTable}
    (absent : table.get? ⟨bound, size⟩ = none) :
    (count bound size).on table =
      (do
        warm bound size
        return (← cached? ⟨bound, size⟩).getD 0 : Counting Nat).on table := by
  rw [count, on_bind_of_ok (congrArg Prod.fst (on_cached? ⟨bound, size⟩ table)), absent]
  rfl

theorem on_count_of_warm_eq_ok {bound size : Nat} {table : CountTable}
    (absent : table.get? ⟨bound, size⟩ = none)
    (warmed : ((warm bound size).on table).1 = .ok ()) :
    (count bound size).on table =
      (.ok ((((warm bound size).on table).2.get? ⟨bound, size⟩).getD 0),
        ((warm bound size).on table).2) := by
  have read := on_cached? ⟨bound, size⟩ ((warm bound size).on table).2
  rw [on_count_of_none absent, on_bind_of_ok warmed, on_bind_of_ok (congrArg Prod.fst read), read]
  rfl

theorem on_count_of_warm_eq_error {bound size : Nat} {table : CountTable} {error : Error}
    (absent : table.get? ⟨bound, size⟩ = none)
    (failed : ((warm bound size).on table).1 = .error error) :
    (count bound size).on table = (.error error, ((warm bound size).on table).2) := by
  rw [on_count_of_none absent, on_bind_of_error failed]

theorem get?_of_count_eq_ok {bound size : Nat} {table : CountTable} (sound : table.Sound)
    {value : Nat} (counted : ((count bound size).on table).1 = .ok value) :
    ((count bound size).on table).2.get? ⟨bound, size⟩ = some value := by
  cases found : table.get? ⟨bound, size⟩ with
  | some entry =>
      rw [on_count_of_some found] at counted ⊢
      cases counted
      exact found
  | none =>
      cases warmed : ((warm bound size).on table).1 with
      | error error =>
          rw [on_count_of_warm_eq_error found warmed] at counted
          cases counted
      | ok _ =>
          rw [on_count_of_warm_eq_ok found warmed] at counted ⊢
          have member := mem_of_forM_fill_eq_ok sound warmed _ (self_mem_region bound size)
          obtain ⟨entry, stored⟩ := mem_iff_exists_get?.mp member
          change ((warm bound size).on table).2.get? _ = _ at stored
          rw [stored] at counted ⊢
          cases counted
          rfl

/-- What a sound table has for a class is what its count is without a table. -/
theorem checkedCount_eq_ok_of_get? {table : CountTable} (sound : SoundFrom start table)
    {bound size value : Nat} (found : table.get? ⟨bound, size⟩ = some value) :
    checkedCount start.intType bound size = .ok value := by
  obtain ⟨right, fits⟩ := sound.sound found
  rw [← intType_eq_of_le sound.le] at fits
  exact checkedCount_eq_ok_iff.mpr ⟨right, fits⟩

theorem count_answers (bound size : Nat) :
    Answers (SoundFrom start) (count bound size) (checkedCount start.intType bound size) := by
  intro table sound
  cases found : table.get? ⟨bound, size⟩ with
  | some value =>
      rw [on_count_of_some found]
      exact ⟨(checkedCount_eq_ok_of_get? sound found).symm, sound⟩
  | none =>
      obtain ⟨answered, soundAfter⟩ := forM_fill_answers (region bound size) table sound
      change ((warm bound size).on table).1 = _ at answered
      cases warmed : ((warm bound size).on table).1 with
      | error error =>
          rw [on_count_of_warm_eq_error found warmed]
          exact ⟨(bind_eq_error_iff.mpr (.inl (answered.symm.trans warmed))).symm, soundAfter⟩
      | ok _ =>
          have counted := congrArg Prod.fst (on_count_of_warm_eq_ok found warmed)
          have stored := get?_of_count_eq_ok sound.sound counted
          rw [on_count_of_warm_eq_ok found warmed] at stored ⊢
          exact ⟨(checkedCount_eq_ok_of_get? soundAfter stored).symm, soundAfter⟩

/-- On the tables of a kind the classes that are ready are counted without a failure,
and with a class those are ready that its terms are made of. -/
structure Ready (kind : CountTable → Prop) (ready : Nat → Nat → Prop) : Prop where
  answers : ∀ {bound size : Nat}, ready bound size →
    Answers kind (count bound size) (.ok (classSize bound size))
  bodies : ∀ {bound body : Nat}, ready bound (body + 2) → ready (bound + 1) body
  parts : ∀ {bound body part : Nat}, ready bound (body + 2) → part ≤ body → ready bound part

theorem ready_of_fits (start : CountTable) :
    Ready (SoundFrom start) fun bound size => start.intType.Fits (classSize bound size) where
  answers {bound size} fits := by
    have answers := @count_answers start bound size
    rwa [checkedCount_eq_ok_iff.mpr ⟨rfl, fits⟩] at answers
  bodies fits := fits.bodies
  parts fits partLe := fits.parts partLe

end Counting
end BinaryLambda
