import BinaryLambda.Table.Count

/-!
The rank of a term in its class.

The rank is read off the term: what comes before it are the abstractions of its
class and the applications with a smaller function, and inside its own block the
pairs of parts in order. The leaves are met from left to right, and the first
one that is in no class decides the error. A size below zero, which only a leaf
from outside can bring about, is refused where its class would be counted.
-/

namespace BinaryLambda
namespace Counting

def countAt (bound : Nat) (size : Int) : Counting Nat :=
  if size < 0 then throw (.negative "n" size) else count bound size.toNat

@[simp] theorem countAt_natCast (bound size : Nat) : countAt bound size = count bound size := by
  have : ¬ (size : Int) < 0 := by omega
  simp [countAt, this]

/-- How many applications with parts of the given size together have a function
smaller than `funcSize`. -/
def smallerFunctions (bound funcSize : Nat) (parts : Int) : Counting Nat :=
  (List.range funcSize).foldlM
    (fun total (smaller : Nat) => do
      let funcs ← count bound smaller
      let args ← countAt bound (parts - smaller)
      return total + funcs * args)
    0

/-- The rank of a term that is known to be valid for the bound. -/
def rankFrom (bound : Nat) : Term → Counting Nat
  | .var index => if index = 0 then throw .indexZero else count bound (index + 1)
  | .lam body => rankFrom (bound + 1) body
  | .app func arg => do
      let abstractions ← countAt (bound + 1) (func.size + arg.size)
      let smaller ← smallerFunctions bound func.size.toNat (func.size + arg.size)
      let args ← countAt bound arg.size
      let funcRank ← rankFrom bound func
      let argRank ← rankFrom bound arg
      return abstractions + smaller + (funcRank - 1) * args + argRank
  | .foreign size => throw (.notATerm (.foreign size))

def rank (bound : Nat) (term : Term) : Counting Nat :=
  if term.IsValid bound then rankFrom bound term else throw (.tooManyFree term bound)

end Counting
end BinaryLambda
