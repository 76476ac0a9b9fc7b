import BinaryLambda.Table.Basic

/-!
What a computation on a table answers, and what it leaves behind.

`Answers` is about one run: from every table of some kind the computation gives a
known answer and leaves a table of that kind. `Respects` is about two runs side by
side, from tables that are related: they answer alike and leave related tables.
Either is proved of a computation from its parts.
-/

namespace BinaryLambda
namespace Counting

variable {α β : Type}

@[simp] theorem on_pure (value : α) (table : CountTable) :
    (pure value : Counting α).on table = (.ok value, table) := rfl

@[simp] theorem on_throw (error : Error) (table : CountTable) :
    (throw error : Counting α).on table = (.error error, table) := rfl

@[simp] theorem on_get (table : CountTable) :
    (get : Counting CountTable).on table = (.ok table, table) := rfl

@[simp] theorem on_modify (change : CountTable → CountTable) (table : CountTable) :
    (modify change : Counting PUnit).on table = (.ok (), change table) := rfl

theorem on_bind_of_ok {computation : Counting α} {next : α → Counting β} {table : CountTable}
    {value : α} (answered : (computation.on table).1 = .ok value) :
    (computation >>= next).on table = (next value).on (computation.on table).2 := by
  simp only [on, EStateM.run, bind, EStateM.bind] at answered ⊢
  cases ran : computation table with
  | ok result after =>
      rw [ran] at answered
      cases answered
      rfl
  | error error after =>
      rw [ran] at answered
      cases answered

theorem on_bind_of_error {computation : Counting α} {next : α → Counting β}
    {table : CountTable} {error : Error} (failed : (computation.on table).1 = .error error) :
    (computation >>= next).on table = (.error error, (computation.on table).2) := by
  simp only [on, EStateM.run, bind, EStateM.bind] at failed ⊢
  cases ran : computation table with
  | ok result after =>
      rw [ran] at failed
      cases failed
  | error other after =>
      rw [ran] at failed
      cases failed
      rfl

theorem on_bind_congr {first second : Counting α} {next other : α → Counting β}
    {table : CountTable} (same : first.on table = second.on table)
    (rest : ∀ value, (first.on table).1 = .ok value →
      (next value).on (first.on table).2 = (other value).on (first.on table).2) :
    (first >>= next).on table = (second >>= other).on table := by
  cases answered : (first.on table).1 with
  | ok value =>
      rw [on_bind_of_ok answered, on_bind_of_ok (same ▸ answered), ← same]
      exact rest value answered
  | error error => rw [on_bind_of_error answered, on_bind_of_error (same ▸ answered), same]

theorem on_bind_eq_ok {computation : Counting α} {next : α → Counting β} {table : CountTable}
    {result : β} (answered : ((computation >>= next).on table).1 = .ok result) :
    ∃ value, (computation.on table).1 = .ok value ∧
      (computation >>= next).on table = (next value).on (computation.on table).2 := by
  cases ran : (computation.on table).1 with
  | error error =>
      rw [on_bind_of_error ran] at answered
      cases answered
  | ok value => exact ⟨value, rfl, on_bind_of_ok ran⟩

theorem on_bind_pure_eq_ok {computation : Counting α} {next : α → β} {table : CountTable}
    {result : β}
    (answered : ((computation >>= fun value => pure (next value)).on table).1 = .ok result) :
    ∃ value, (computation.on table).1 = .ok value ∧ result = next value := by
  obtain ⟨value, computed, ran⟩ := on_bind_eq_ok answered
  rw [ran] at answered
  cases answered
  exact ⟨value, computed, rfl⟩

theorem on_bind_pure (computation : Counting α) (next : α → β) (table : CountTable) :
    (computation >>= fun value => pure (next value)).on table =
      (next <$> (computation.on table).1, (computation.on table).2) := by
  cases answered : (computation.on table).1 with
  | ok value =>
      rw [on_bind_of_ok answered]
      rfl
  | error error =>
      rw [on_bind_of_error answered]
      rfl

/-- What goes on from an answer may leave the table as it is. -/
theorem table_bind_eq {computation : Counting α} {next : α → Counting β} {table : CountTable}
    (unchanged : ∀ value, (computation.on table).1 = .ok value →
      ((next value).on (computation.on table).2).2 = (computation.on table).2) :
    ((computation >>= next).on table).2 = (computation.on table).2 := by
  cases answered : (computation.on table).1 with
  | ok value =>
      rw [on_bind_of_ok answered]
      exact unchanged value answered
  | error error => rw [on_bind_of_error answered]

theorem on_discard (computation : Counting α) (table : CountTable) :
    (discard computation).on table =
      (discard (computation.on table).1, (computation.on table).2) := by
  change on (EStateM.map _ computation) table = _
  simp only [on, EStateM.run, EStateM.map]
  cases computation table <;> rfl

theorem on_tryCatch_of_ok {computation : Counting α} {handle : Error → Counting α}
    {table : CountTable} {value : α} (answered : (computation.on table).1 = .ok value) :
    (tryCatch computation handle).on table = (.ok value, (computation.on table).2) := by
  simp only [on, EStateM.run, tryCatch, tryCatchThe, MonadExceptOf.tryCatch] at answered ⊢
  -- `simp` would add an equation for it to the library's.
  delta EStateM.tryCatch
  cases ran : computation table with
  | ok result after =>
      rw [ran] at answered
      cases answered
      rfl
  | error error after =>
      rw [ran] at answered
      cases answered

theorem on_tryCatch_of_error {computation : Counting α} {handle : Error → Counting α}
    {table : CountTable} {error : Error} (failed : (computation.on table).1 = .error error) :
    (tryCatch computation handle).on table = (handle error).on (computation.on table).2 := by
  simp only [on, EStateM.run, tryCatch, tryCatchThe, MonadExceptOf.tryCatch] at failed ⊢
  delta EStateM.tryCatch
  cases ran : computation table with
  | ok result after =>
      rw [ran] at failed
      cases failed
  | error other after =>
      rw [ran] at failed
      cases failed
      rfl

@[simp] theorem on_cached? (key : Key) (table : CountTable) :
    (cached? key).on table = (.ok (table.get? key), table) := rfl

theorem on_store (key : Key) (value : Nat) (table : CountTable) :
    (store key value).on table =
      if table.intType.Fits value then (.ok (), table.insert key value)
      else (.error (.overflow (.int key.bound) key.size table.intType value), table) := by
  have read : ((get : Counting CountTable).on table).1 = .ok table := rfl
  rw [store, on_bind_of_ok read]
  by_cases fits : table.intType.Fits value
  · simp only [if_pos fits]
    rfl
  · simp only [if_neg fits]
    rfl

/-- From every table of a kind the computation gives the answer, and it leaves a
table of that kind. -/
def Answers (kind : CountTable → Prop) (computation : Counting α) (answer : Except Error α) :
    Prop :=
  ∀ table, kind table → (computation.on table).1 = answer ∧ kind (computation.on table).2

namespace Answers

variable {kind : CountTable → Prop}

theorem pure (value : α) : Answers kind (Pure.pure value) (.ok value) :=
  fun _ fit => ⟨rfl, fit⟩

theorem throw (error : Error) : Answers kind (throw error : Counting α) (.error error) :=
  fun _ fit => ⟨rfl, fit⟩

theorem bind {computation : Counting α} {next : α → Counting β} {answer : Except Error α}
    {nextAnswer : α → Except Error β} (first : Answers kind computation answer)
    (rest : ∀ value, answer = .ok value → Answers kind (next value) (nextAnswer value)) :
    Answers kind (computation >>= next) (answer >>= nextAnswer) := by
  intro table fit
  obtain ⟨answered, fitAfter⟩ := first table fit
  cases answer with
  | error error =>
      rw [on_bind_of_error answered]
      exact ⟨rfl, fitAfter⟩
  | ok value =>
      rw [on_bind_of_ok answered]
      exact rest value rfl _ fitAfter

theorem bind_ok {computation : Counting α} {next : α → Counting β} {value : α}
    {answer : Except Error β} (first : Answers kind computation (.ok value))
    (rest : Answers kind (next value) answer) : Answers kind (computation >>= next) answer := by
  intro table fit
  obtain ⟨answered, fitAfter⟩ := first table fit
  rw [on_bind_of_ok answered]
  exact rest _ fitAfter

theorem bind_error {computation : Counting α} {next : α → Counting β} {error : Error}
    (first : Answers kind computation (.error error)) :
    Answers kind (computation >>= next) (.error error) := by
  intro table fit
  obtain ⟨failed, fitAfter⟩ := first table fit
  rw [on_bind_of_error failed]
  exact ⟨rfl, fitAfter⟩

theorem tryCatch_ok {computation : Counting α} {handle : Error → Counting α} {value : α}
    (first : Answers kind computation (.ok value)) :
    Answers kind (tryCatch computation handle) (.ok value) := by
  intro table fit
  obtain ⟨answered, fitAfter⟩ := first table fit
  rw [on_tryCatch_of_ok answered]
  exact ⟨rfl, fitAfter⟩

theorem tryCatch_error {computation : Counting α} {handle : Error → Counting α} {error : Error}
    {answer : Except Error α} (first : Answers kind computation (.error error))
    (handled : Answers kind (handle error) answer) :
    Answers kind (tryCatch computation handle) answer := by
  intro table fit
  obtain ⟨failed, fitAfter⟩ := first table fit
  rw [on_tryCatch_of_error failed]
  exact handled _ fitAfter

theorem forM {keys : List α} {computation : α → Counting PUnit} {answer : α → Except Error PUnit}
    (each : ∀ key ∈ keys, Answers kind (computation key) (answer key)) :
    Answers kind (keys.forM computation) (keys.forM answer) := by
  induction keys with
  | nil => exact pure ()
  | cons key keys inductionHypothesis =>
      refine bind (each key (by simp)) fun _ _ => ?_
      exact inductionHypothesis fun other member => each other (by simp [member])

theorem mapM_of_forall {values : List α} {computation : α → Counting β}
    {answer : α → Except Error β}
    (each : ∀ value ∈ values, Answers kind (computation value) (answer value)) :
    Answers kind (values.mapM computation) (values.mapM answer) := by
  induction values with
  | nil => exact pure []
  | cons value values inductionHypothesis =>
      rw [List.mapM_cons, List.mapM_cons]
      refine bind (each value (by simp)) fun _ _ => ?_
      refine bind (inductionHypothesis fun other member => each other (by simp [member])) ?_
      exact fun _ _ => pure _

end Answers

/-- Run from related tables, the computation gives one answer and leaves related
tables, unless it fails on the first of them with an error that is excused. -/
def Respects (related : CountTable → CountTable → Prop) (excused : Error → Prop)
    (computation : Counting α) : Prop :=
  ∀ first second, related first second →
    (∃ error, (computation.on first).1 = .error error ∧ excused error) ∨
      ((computation.on first).1 = (computation.on second).1 ∧
        related (computation.on first).2 (computation.on second).2)

namespace Respects

variable {related : CountTable → CountTable → Prop} {excused : Error → Prop}

theorem pure (value : α) : Respects related excused (Pure.pure value : Counting α) :=
  fun _ _ relation => .inr ⟨rfl, relation⟩

theorem throw (error : Error) : Respects related excused (throw error : Counting α) :=
  fun _ _ relation => .inr ⟨rfl, relation⟩

theorem bind {computation : Counting α} {next : α → Counting β}
    (first : Respects related excused computation)
    (rest : ∀ value, Respects related excused (next value)) :
    Respects related excused (computation >>= next) := by
  intro table other relation
  rcases first table other relation with ⟨error, failed, allowed⟩ | ⟨same, relationAfter⟩
  · rw [on_bind_of_error failed]
    exact .inl ⟨error, rfl, allowed⟩
  · cases answered : (computation.on table).1 with
    | error error =>
        rw [on_bind_of_error answered, on_bind_of_error (same.symm.trans answered)]
        exact .inr ⟨rfl, relationAfter⟩
    | ok value =>
        rw [on_bind_of_ok answered, on_bind_of_ok (same.symm.trans answered)]
        exact rest value _ _ relationAfter

theorem same {computation : Counting α} (respects : Respects related (fun _ => False) computation)
    {table other : CountTable} (relation : related table other) :
    (computation.on table).1 = (computation.on other).1 ∧
      related (computation.on table).2 (computation.on other).2 := by
  rcases respects table other relation with ⟨_, _, allowed⟩ | alike
  · exact allowed.elim
  · exact alike

/-- A handler that passes excused errors on. -/
theorem tryCatch {computation : Counting α} {handle : Error → Counting α}
    (first : Respects related excused computation)
    (handled : ∀ error, Respects related excused (handle error))
    (passed : ∀ error, excused error → handle error = MonadExcept.throw error) :
    Respects related excused (tryCatch computation handle) := by
  intro table other relation
  rcases first table other relation with ⟨error, failed, allowed⟩ | ⟨same, relationAfter⟩
  · rw [on_tryCatch_of_error failed, passed error allowed]
    exact .inl ⟨error, rfl, allowed⟩
  · cases answered : (computation.on table).1 with
    | error error =>
        rw [on_tryCatch_of_error answered, on_tryCatch_of_error (same.symm.trans answered)]
        exact handled error _ _ relationAfter
    | ok value =>
        rw [on_tryCatch_of_ok answered, on_tryCatch_of_ok (same.symm.trans answered)]
        exact .inr ⟨rfl, relationAfter⟩

theorem foldlM {values : List α} {step : β → α → Counting β} {start : β}
    (each : ∀ total value, Respects related excused (step total value)) :
    Respects related excused (values.foldlM step start) := by
  induction values generalizing start with
  | nil => exact pure start
  | cons value values inductionHypothesis =>
      rw [List.foldlM_cons]
      exact bind (each start value) fun total => inductionHypothesis

theorem mapM {values : List α} {computation : α → Counting β}
    (each : ∀ value, Respects related excused (computation value)) :
    Respects related excused (values.mapM computation) := by
  rw [← List.mapM'_eq_mapM]
  induction values with
  | nil => exact pure []
  | cons value values inductionHypothesis =>
      refine bind (each value) fun result => ?_
      exact bind inductionHypothesis fun results => pure _

end Respects
end Counting
end BinaryLambda
