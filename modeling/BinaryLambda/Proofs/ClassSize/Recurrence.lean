import BinaryLambda.Recurrence

/-!
The recurrence in two monads at once.

What relates the counts of the smaller classes in two monads relates what the
recurrence makes of them, if it is kept by returning a value and by going on with
one. From right counts of the smaller classes come right counts of the class.
-/

namespace BinaryLambda

section Related

variable {μ ν : Type → Type} [Monad μ] [Monad ν]
  (related : {α : Type} → μ α → ν α → Prop)
  (related_pure : ∀ {α : Type} (value : α), related (pure value) (pure value))
  (related_bind : ∀ {α β : Type} {first : μ α} {second : ν α} {firstNext : α → μ β}
    {secondNext : α → ν β}, related first second →
      (∀ value, related (firstNext value) (secondNext value)) →
        related (first >>= firstNext) (second >>= secondNext))

include related_pure related_bind

theorem foldlM_related {α β : Type} {firstStep : β → α → μ β} {secondStep : β → α → ν β}
    (steps : ∀ total value, related (firstStep total value) (secondStep total value))
    (values : List α) (start : β) :
    related (values.foldlM firstStep start) (values.foldlM secondStep start) := by
  induction values generalizing start with
  | nil => exact related_pure start
  | cons value values inductionHypothesis =>
      rw [List.foldlM_cons, List.foldlM_cons]
      exact related_bind (steps start value) inductionHypothesis

/-- Two monads in which the counts of the smaller classes are related relate what
the recurrence makes of them. -/
theorem recurrence_related {leaves size : Nat}
    {firstBodies firstParts : (smaller : Nat) → smaller < size → μ Nat}
    {secondBodies secondParts : (smaller : Nat) → smaller < size → ν Nat}
    (bodies : ∀ smaller (lt : smaller < size), smaller + 2 = size →
      related (firstBodies smaller lt) (secondBodies smaller lt))
    (parts : ∀ smaller (lt : smaller < size), smaller + 2 ≤ size →
      related (firstParts smaller lt) (secondParts smaller lt)) :
    related (recurrence leaves size firstBodies firstParts)
      (recurrence leaves size secondBodies secondParts) := by
  match size with
  | 0 => exact related_pure 0
  | 1 => exact related_pure 0
  | body + 2 =>
      refine related_bind (bodies body (by omega) rfl) fun abstractions => ?_
      refine related_bind ?_ fun applications => related_pure _
      refine foldlM_related related related_pure related_bind (fun total func => ?_) _ 0
      refine related_bind (parts _ _ (by omega)) fun funcs => ?_
      exact related_bind (parts _ _ (by omega)) fun args => related_pure _

end Related

theorem recurrence_holds {μ : Type → Type} [Monad μ] (holds : {α : Type} → μ α → Prop)
    (holds_pure : ∀ {α : Type} (value : α), holds (pure value))
    (holds_bind : ∀ {α β : Type} {computation : μ α} {next : α → μ β}, holds computation →
      (∀ value, holds (next value)) → holds (computation >>= next))
    {leaves size : Nat} {bodies parts : (smaller : Nat) → smaller < size → μ Nat}
    (bodies_hold : ∀ smaller (lt : smaller < size), smaller + 2 = size →
      holds (bodies smaller lt))
    (parts_hold : ∀ smaller (lt : smaller < size), smaller + 2 ≤ size →
      holds (parts smaller lt)) :
    holds (recurrence leaves size bodies parts) :=
  @recurrence_related μ μ _ _ (fun {_} first _ => holds first) holds_pure
    (fun held nextHeld => holds_bind held nextHeld) leaves size bodies parts bodies parts
    bodies_hold parts_hold

end BinaryLambda
