import BinaryLambda.Proofs.ClassSize.Monotone
import BinaryLambda.Table.Count

/-!
Whether the counts on which a count depends fit its type.

What the recurrence reads for a class is no larger than the class. The region of a
class holds classes that the recurrence does not read, and some of them can be
larger; but every type has room for 127 terms, and these have fewer. So wherever a
class fits, its whole region does (`IntType.Fits.of_mem_region`).
-/

namespace BinaryLambda

def Key.classSize (key : Key) : Nat := BinaryLambda.classSize key.bound key.size.toNat

theorem IntType.fits_of_le_127 (type : IntType) {value : Nat} (le : value ≤ 127) :
    type.Fits value := by
  intro max member
  apply le.trans
  cases type with
  | unbounded => simp [max?] at member
  | signed width =>
      simp only [max?, Option.mem_def, Option.some.injEq] at member
      subst member
      cases width <;> decide
  | unsigned width =>
      simp only [max?, Option.mem_def, Option.some.injEq] at member
      subst member
      cases width <;> decide

theorem IntType.fits_closed_four (type : IntType) : type.Fits (classSize (0 : Nat) 4) := by
  rw [classSize_closed_four]
  exact type.fits_of_le_127 (by decide)

theorem IntType.fits_closed_eight (type : IntType) : type.Fits (classSize (0 : Nat) 8) := by
  rw [classSize_closed_eight]
  exact type.fits_of_le_127 (by decide)

theorem IntType.Fits.max_127 {type : IntType} {value : Nat} (fits : type.Fits value) :
    type.Fits (max 127 value) := by
  rcases max_choice 127 value with small | large
  · rw [small]
    exact type.fits_of_le_127 (le_refl 127)
  · rw [large]
    exact fits

theorem IntType.Fits.bodies {type : IntType} {bound : Int} {body : Nat}
    (fits : type.Fits (classSize bound (body + 2))) : type.Fits (classSize (bound + 1) body) :=
  fits.mono (classSize_bodies_le bound body)

theorem IntType.Fits.parts {type : IntType} {bound : Int} {body part : Nat}
    (fits : type.Fits (classSize bound (body + 2))) (partLe : part ≤ body) :
    type.Fits (classSize bound part) :=
  fits.mono (classSize_le_of_add_two_le bound (by omega))

theorem classSize_bodies_iterate_le (bound : Int) (lambdas body : Nat) :
    classSize (bound + lambdas) body ≤ classSize bound (body + 2 * lambdas) := by
  induction lambdas generalizing body with
  | zero => simp
  | succ lambdas inductionHypothesis =>
      calc classSize (bound + (lambdas + 1 : Nat)) body
          = classSize (bound + lambdas + 1) body := by
            congr 1
            omega
        _ ≤ classSize (bound + lambdas) (body + 2) := classSize_bodies_le _ body
        _ ≤ classSize bound (body + 2 + 2 * lambdas) := inductionHypothesis (body + 2)
        _ = classSize bound (body + 2 * (lambdas + 1)) := by
            congr 1
            omega

theorem classSize_le_of_mem_region {bound size : Nat} {key : Key}
    (member : key ∈ region bound size) : key.classSize ≤ max 127 (classSize bound size) := by
  obtain ⟨sizeNonneg, sizeLe, boundLe, boundUpper⟩ := mem_region.mp member
  obtain ⟨lambdas, bound_eq⟩ : ∃ lambdas : Nat, key.bound = bound + lambdas :=
    ⟨(key.bound - bound).toNat, by omega⟩
  have below := classSize_bodies_iterate_le bound lambdas key.size.toNat
  rw [← bound_eq] at below
  apply Nat.le_trans below
  -- Only a class that is one bit smaller than the whole one can be larger than it.
  rcases (show key.size.toNat + 2 * lambdas = size ∨ key.size.toNat + 2 * lambdas + 1 = size ∨
      key.size.toNat + 2 * lambdas + 2 ≤ size by omega) with whole | next | smaller
  · rw [whole]
    exact le_max_right _ _
  · rw [← next]
    exact classSize_le_max_succ bound _
  · exact le_max_of_le_right (classSize_le_of_add_two_le bound smaller)

theorem IntType.Fits.of_mem_region {type : IntType} {bound size : Nat} {key : Key}
    (fits : type.Fits (classSize bound size)) (member : key ∈ region bound size) :
    type.Fits key.classSize :=
  fits.max_127.mono (classSize_le_of_mem_region member)

end BinaryLambda
