/-!
The recurrence for the number of terms in a class.

A term of size `body + 2` is the variable with index `body + 1`, if the bound
admits it, or an abstraction over a body of size `body` with one more variable
free, or an application whose two parts share `body` between them. No term has
size 0 or 1.

`classSize` is the number that the recurrence defines. `recurrence` is one step
of it in any monad, from the number of leaves in the class. The smaller classes
are supplied by the caller, so that a table of counts can look them up; the class
of the bodies is asked for first and then the two parts of each application in
turn.
-/

namespace BinaryLambda

/-- The number of variables of a size among the terms with a bound: one or none. -/
def variableCount (bound : Int) (size : Nat) : Nat :=
  if (size : Int) ≤ bound + 1 then 1 else 0

def classSize : (bound : Int) → (size : Nat) → Nat
  | _, 0 => 0
  | _, 1 => 0
  | bound, body + 2 =>
      variableCount bound (body + 2) + classSize (bound + 1) body +
        (List.finRange (body + 1)).foldl
          (fun total (func : Fin (body + 1)) =>
            total + classSize bound func * classSize bound (body - func))
          0
termination_by _ size => size

@[simp] theorem classSize_zero (bound : Int) : classSize bound 0 = 0 := by
  rw [classSize]

@[simp] theorem classSize_one (bound : Int) : classSize bound 1 = 0 := by
  rw [classSize]

universe u

def recurrence {μ : Type → Type u} [Monad μ] (leaves size : Nat)
    (bodies parts : (smaller : Nat) → smaller < size → μ Nat) : μ Nat :=
  match size with
  | 0 => return 0
  | 1 => return 0
  | body + 2 => do
      let abstractions ← bodies body (by omega)
      let applications ← (List.finRange (body + 1)).foldlM
        (fun total (func : Fin (body + 1)) => do
          let funcs ← parts func (by omega)
          let args ← parts (body - func) (by omega)
          return total + funcs * args)
        0
      return leaves + abstractions + applications

theorem run_recurrence_classSize (bound : Int) (size : Nat) :
    (recurrence (variableCount bound size) size
      (fun smaller _ => pure (classSize (bound + 1) smaller))
      (fun smaller _ => pure (classSize bound smaller)) : Id Nat).run = classSize bound size := by
  match size with
  | 0 => simp [recurrence]
  | 1 => simp [recurrence]
  | body + 2 => simp [recurrence, classSize]

end BinaryLambda
