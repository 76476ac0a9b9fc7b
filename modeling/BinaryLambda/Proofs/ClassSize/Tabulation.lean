import BinaryLambda.Proofs.ClassSize.Growth

/-!
The sizes of small classes, one bound after the other.

`classSizes` lists the sizes of the classes under one bound from those under the
next, so that each is counted once. The largest class comes first: so a list only
ever grows at its head. `classSizes_eq` says that the sizes are right.
-/

namespace BinaryLambda

open Finset

/-- The sum of the products of the entries with those at the mirrored places. -/
def convolutionOf (values : List Nat) : Nat :=
  (values.zipWith (fun first second => first * second) values.reverse).sum

theorem reverse_map_range (sequence : Nat → Nat) (total : Nat) :
    ((List.range (total + 1)).map sequence).reverse =
      (List.range (total + 1)).map fun place => sequence (total - place) := by
  apply List.ext_getElem
  · simp
  · intro place _ _
    simp [List.getElem_reverse]

theorem convolutionOf_reverse_map_range (sequence : Nat → Nat) (total : Nat) :
    convolutionOf ((List.range (total + 1)).map sequence).reverse =
      convolution sequence total := by
  rw [convolutionOf, List.reverse_reverse, reverse_map_range, List.zipWith_map, List.zipWith_self,
    sum_map_range, convolution]
  exact sum_congr rfl fun place _ => Nat.mul_comm _ _

def nextClassSize (bound : Int) (bodies : Nat) (smaller : List Nat) : Nat :=
  variableCount bound smaller.length + bodies + convolutionOf smaller.tail

theorem nextClassSize_eq (bound : Int) (body : Nat) :
    nextClassSize bound (classSize (bound + 1) body)
        ((List.range (body + 2)).map (classSize bound)).reverse =
      classSize bound (body + 2) := by
  have tail_eq : ((List.range (body + 2)).map (classSize bound)).reverse.tail =
      ((List.range (body + 1)).map (classSize bound)).reverse := by
    simp [List.range_succ (n := body + 1)]
  rw [nextClassSize, tail_eq, convolutionOf_reverse_map_range, classSize_add_two]
  simp

/-- The sizes of the first `2 * steps` classes under a bound. -/
def classSizes (bound : Int) : (steps : Nat) → List Nat
  | 0 => []
  | steps + 1 =>
      (classSizes (bound + 1) steps).foldr
        (fun bodies smaller => nextClassSize bound bodies smaller :: smaller) [0, 0]

theorem classSizes_eq (bound : Int) (steps : Nat) :
    classSizes bound steps = ((List.range (2 * steps)).map (classSize bound)).reverse := by
  induction steps generalizing bound with
  | zero => rfl
  | succ steps inductionHypothesis =>
      have grow : ∀ length, ((List.range length).map (classSize (bound + 1))).reverse.foldr
          (fun bodies smaller => nextClassSize bound bodies smaller :: smaller) [0, 0] =
            ((List.range (length + 2)).map (classSize bound)).reverse := by
        intro length
        induction length with
        | zero => simp [List.range_succ]
        | succ length lengthHypothesis =>
            rw [List.range_succ, List.map_append, List.reverse_append, List.foldr_append,
              lengthHypothesis]
            simp [List.range_succ (n := length + 2), nextClassSize_eq]
      rw [classSizes, inductionHypothesis, grow, Nat.mul_add]

theorem getElem_classSizes {bound : Int} {steps place : Nat}
    (inside : place < (classSizes bound steps).length) :
    (classSizes bound steps)[place] = classSize bound (2 * steps - 1 - place) := by
  simp [classSizes_eq, List.getElem_reverse]

theorem classSize_eq_of_getElem? {bound : Int} {steps size value : Nat}
    (inside : size < 2 * steps)
    (tabulated : (classSizes bound steps)[2 * steps - 1 - size]? = some value) :
    classSize bound size = value := by
  obtain ⟨place, value_eq⟩ := List.getElem?_eq_some_iff.mp tabulated
  rw [getElem_classSizes] at value_eq
  rw [← value_eq]
  congr 1
  omega

theorem classSize_closed_four : classSize (0 : Nat) 4 = 1 :=
  @classSize_eq_of_getElem? (0 : Nat) 3 4 1 (by decide) (by decide +kernel)

theorem classSize_closed_five : classSize (0 : Nat) 5 = 0 :=
  @classSize_eq_of_getElem? (0 : Nat) 3 5 0 (by decide) (by decide +kernel)

theorem classSize_closed_eight : classSize (0 : Nat) 8 = 2 :=
  @classSize_eq_of_getElem? (0 : Nat) 5 8 2 (by decide) (by decide +kernel)

theorem classSize_closed_seventeen : classSize (0 : Nat) 17 = 134 :=
  @classSize_eq_of_getElem? (0 : Nat) 9 17 134 (by decide) (by decide +kernel)

end BinaryLambda
