import BinaryLambda.Table.Count

/-!
The term of a rank.

The terms of a class are ranked from 1: first the abstractions, in the order of
their bodies; then the applications, by the size of the function, then by the
rank of the function and then by that of the argument; last the variable, if the
class has one. `Counting.choose` finds where a rank falls and what ranks the
parts of its term have, and `Counting.unrankFrom` follows these choices down.
-/

namespace BinaryLambda

/-- An application in a class: the sizes of its parts, which fill `size`
together, and the ranks of its parts in their own classes. -/
structure Slot (size : Nat) where
  funcSize : Nat
  argSize : Nat
  funcRank : Nat
  argRank : Nat
  size_eq : funcSize + argSize = size

inductive Choice : (size : Nat) → Type where
  | variable {size : Nat} : Choice size
  | abstraction {body : Nat} (rank : Nat) : Choice (body + 2)
  | application {parts : Nat} (slot : Slot parts) : Choice (parts + 2)

namespace Counting

/-- Finds the application of a rank among those whose function has at least the
size `funcSize`. Those with a function of one size make a block, in which the
rank of the argument varies fastest; a rank beyond a block goes on to the next
size. The sizes run out only for a rank beyond the class. -/
def slotFrom {size : Nat} (bound funcSize argSize rank : Nat)
    (size_eq : funcSize + argSize = size) : Counting (Slot size) := do
  let args ← count bound argSize
  let funcs ← count bound funcSize
  if rank ≤ funcs * args then
    return ⟨funcSize, argSize, (rank - 1) / args + 1, (rank - 1) % args + 1, size_eq⟩
  else
    (match argSize, size_eq with
    | 0, _ => throw (.negative "n" (-1))
    | smaller + 1, size_eq =>
        slotFrom bound (funcSize + 1) smaller (rank - funcs * args) (by omega))

/-- The class has a variable, and the rank is the last one, which is its. -/
def isVariableRank (bound size rank : Nat) : Counting Bool := do
  if size ≤ bound + 1 then
    return rank == (← count bound size)
  else
    return false

def choose (bound size rank : Nat) : Counting (Choice size) := do
  if ← isVariableRank bound size rank then
    return .variable
  else
    (match size with
    | body + 2 => do
        let abstractions ← count (bound + 1) body
        if rank ≤ abstractions then
          return .abstraction rank
        else
          return .application (← slotFrom bound 0 body (rank - abstractions) (by omega))
    | small => throw (.negative "n" (small - 2)))

def unrankFrom (bound size rank : Nat) : Counting Term := do
  let choice ← choose bound size rank
  (match size, choice with
  | size, .variable => return .var (size - 1)
  | body + 2, .abstraction rank => return .lam (← unrankFrom (bound + 1) body rank)
  | parts + 2, .application slot => do
      have := slot.size_eq
      let func ← unrankFrom bound slot.funcSize slot.funcRank
      let arg ← unrankFrom bound slot.argSize slot.argRank
      return .app func arg)
termination_by size

def unrank (bound size rank : Nat) : Counting Term := do
  if rank = 0 then
    throw .rankZero
  else
    let total ← count bound size
    if total < rank then
      throw (.rankOutOfRange rank total bound size)
    else
      unrankFrom bound size rank

end Counting
end BinaryLambda
