import BinaryLambda.Literal

/-!
Coordinates: what may stand for the bound or the size of a class in a lookup.

A lookup does not read its arguments as integers, so any value but a list can
come to stand in a class. Two coordinates are one if they are equal as values: a
floating-point number is the integer that it equals, and `Coordinate.canonical`
is the one form that equal coordinates share.
-/

namespace BinaryLambda

inductive Coordinate where
  | whole (value : Int)
  | floating (value : Floating)
  /-- A value that is no number. -/
  | other (value : Scalar)
  deriving DecidableEq, Repr, Inhabited, Hashable

namespace Coordinate

/-- The coordinate of a value. What is no number among the floating-point ones
takes the given origin. -/
def ofScalar (origin : List Int) : Scalar → Coordinate
  | .bool false => whole 0
  | .bool true => whole 1
  | .int value => whole value
  | .decimal digits =>
      match Floating.ofText digits with
      | .undefined _ => floating (.undefined origin)
      | number => floating number
  | value => other value

def integer? : Coordinate → Option Int
  | whole value => some value
  | floating value => value.integer?
  | other _ => none

@[simp] theorem integer?_whole (value : Int) : (whole value).integer? = some value := rfl

def canonical (coordinate : Coordinate) : Coordinate :=
  match coordinate.integer? with
  | some value => whole value
  | none => coordinate

@[simp] theorem integer?_canonical (coordinate : Coordinate) :
    coordinate.canonical.integer? = coordinate.integer? := by
  cases equal : coordinate.integer? <;> simp [canonical, equal]

@[simp] theorem canonical_canonical (coordinate : Coordinate) :
    coordinate.canonical.canonical = coordinate.canonical := by
  cases equal : coordinate.integer? <;> simp [canonical, equal]

def isFloating : Coordinate → Bool
  | floating _ => true
  | whole _ | other _ => false

end Coordinate

structure Place where
  bound : Coordinate
  size : Coordinate
  deriving DecidableEq, Repr, Inhabited, Hashable

namespace Place

def canonical (place : Place) : Place := ⟨place.bound.canonical, place.size.canonical⟩

@[simp] theorem canonical_canonical (place : Place) :
    place.canonical.canonical = place.canonical := by
  simp [canonical]

def isFloating (place : Place) : Bool := place.bound.isFloating || place.size.isFloating

end Place
end BinaryLambda
