import BinaryLambda.Unrank

/-!
Drawing a term of a class.

A generator answers each request for a number between two ends. Drawing asks it
once, for a rank of the class, and takes the term of that rank; every request is
put on record. An empty class is refused before anything is asked.
-/

namespace BinaryLambda

structure Draw where
  low : Nat
  high : Nat
  deriving DecidableEq, Repr

abbrev Generator := Draw → Nat

namespace Generator

def InRange (generator : Generator) : Prop :=
  ∀ draw, draw.low ≤ draw.high →
    draw.low ≤ generator draw ∧ generator draw ≤ draw.high

/-- The generator whose answers go round between the ends with one number. -/
def cyclic (number : Int) : Generator := fun draw =>
  draw.low + (number.fmod (draw.high - draw.low + 1)).toNat

theorem cyclic_inRange (number : Int) : (cyclic number).InRange := by
  intro draw ordered
  have positive : (0 : Int) < draw.high - draw.low + 1 := by omega
  have nonneg := Int.fmod_nonneg_of_pos number positive
  have below := Int.fmod_lt_of_pos number positive
  simp only [cyclic]
  omega

end Generator

abbrev Sampling := StateT (List Draw) Counting

namespace Sampling

def ask (generator : Generator) (low high : Nat) : Sampling Nat := do
  modify (· ++ [⟨low, high⟩])
  return generator ⟨low, high⟩

def term (generator : Generator) (bound size : Nat) : Sampling Term := do
  let total ← Counting.count bound size
  if total = 0 then
    throw (.rankOutOfRange 1 0 bound size)
  else
    let rank ← ask generator 1 total
    Counting.unrankFrom bound size rank

end Sampling

/-- A term of a class as the generator picks it, and what the generator was
asked for. -/
def Counting.sample (generator : Generator) (bound size : Nat) : Counting (Term × List Draw) :=
  (Sampling.term generator bound size).run []

end BinaryLambda
