import BinaryLambda.Ledger.Basic
import BinaryLambda.Table.Count

/-!
Looking up the count of a class in a ledger.

A lookup takes its bound and its size as they are. A class that has been counted
has its count, whatever its coordinates; a class of size 1 or less has no terms,
whatever its bound. Above that the recurrence compares the bound with the size,
so that both must be numbers, and counts through the smaller sizes, so that the
size must be an integer.
-/

namespace BinaryLambda
namespace Bookkeeping

def cached? (place : Place) : Bookkeeping (Option Nat) := return (← get).get? place

def storeEmpty (place : Place) : Bookkeeping Nat := do
  modify fun ledger => ledger.insert place 0
  return 0

/-- Looks up a class with a floating-point number for its bound. The recurrence
raises the bound by floating-point arithmetic. -/
def lookupFloating (bound : Floating) (size : Int) : Bookkeeping Nat := do
  let place : Place := ⟨.floating bound, .whole size⟩
  match ← cached? place with
  | some value => return value
  | none =>
      let leaves := if bound.AtLeast (size - 1) then 1 else 0
      let value ← recurrence leaves size.toNat
        (fun smaller _ => lookupFloating (bound.successor size) smaller)
        (fun smaller _ => lookupFloating bound smaller)
      let intType := (← get).table.intType
      if intType.Fits value then
        modify fun ledger => ledger.insert place value
        return value
      else
        throw (.overflow (.scalar (.decimal bound.text)) size intType value)
termination_by size.toNat

def lookupOther (bound : Scalar) (size : Int) : Bookkeeping Nat := do
  let place : Place := ⟨.other bound, .whole size⟩
  match ← cached? place with
  | some value => return value
  | none =>
      if size ≤ 1 then storeEmpty place
      else throw (.notOrdered ">=" bound.typeName "int")

theorem floor_sub_two_lt {size : Rat} (large : ¬ size ≤ 1) :
    (size - 2).floor.toNat < size.floor.toNat := by
  have atLeastOne : 1 ≤ size.floor := Rat.le_floor_iff.mpr (by grind)
  have lower : (size - 2).floor = size.floor - 2 := by
    have := Rat.floor_add_intCast (x := size) (y := -2)
    grind
  omega

/-- Looks up a class with a floating-point number for its size. Two is taken off
the size, for the bodies of abstractions, until a class is known or has no terms;
from there on nothing can be counted through. -/
def descend (bound : Coordinate) (size : Rat) : Bookkeeping Nat := do
  let place : Place := ⟨bound, .floating (.finite size)⟩
  match ← cached? place with
  | some value => return value
  | none =>
      if _ : ¬ size ≤ 1 then
        match bound with
        | .other bound => throw (.notOrdered ">=" bound.typeName "float")
        | .whole bound => let _ ← descend (.whole (bound + 1)) (size - 2)
        | .floating bound => let _ ← descend (.floating (bound.successor size.floor)) (size - 2)
        throw .floatingSize
      else
        storeEmpty place
termination_by size.floor.toNat
decreasing_by all_goals exact floor_sub_two_lt (by assumption)

def lookupAt : (bound size : Coordinate) → Bookkeeping Nat
  | .whole bound, .whole size => counting (Counting.lookup bound size)
  | .floating bound, .whole size => lookupFloating bound size
  | .other bound, .whole size => lookupOther bound size
  | bound, .floating (.finite size) => descend bound size
  | bound, .floating (.infinite true) => do
      let place : Place := ⟨bound, .floating (.infinite true)⟩
      match ← cached? place with
      | some value => return value
      | none => storeEmpty place
  | .other bound, .floating _ => throw (.notOrdered ">=" bound.typeName "float")
  | _, .floating _ => throw .floatingSize
  | _, .other size => throw (.notOrdered "<=" size.typeName "int")

/-- Looks up a class by any two values. An overflow shows the bound as it was
handed in: the recurrence keeps a bound or raises it, so only the bound of the
class itself equals that value. -/
def lookup : (bound size : Literal) → Bookkeeping Nat
  | .scalar bound, .scalar size => do
      let origin : List Int := [(← get).strays.size]
      tryCatch (lookupAt (.ofScalar origin bound) (.ofScalar origin size)) fun error =>
        throw (error.showing bound)
  | _, _ => throw .listAsKey

def has : (bound size : Literal) → Bookkeeping Bool
  | .scalar bound, .scalar size => do
      return ((← get).get? ⟨.ofScalar [] bound, .ofScalar [] size⟩).isSome
  | _, _ => throw .listAsKey

end Bookkeeping
end BinaryLambda
