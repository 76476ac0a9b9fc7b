import BinaryLambda.Proofs.Term.Order
import BinaryLambda.Term.Code

/-!
Classes of one size under different bounds.

A larger bound brings more terms into a class and leaves the others in their order, since
the order does not know the bound: the class of the smaller bound is what a filter leaves
of the other (`filter_classTerms`). No term needs as many variables as it has bits, so
from the size on a larger bound brings nothing more (`classTerms_eq_of_size_le`).
-/

namespace BinaryLambda
namespace Term

theorem HasRoom.freeBound_le {term : Term} (room : term.HasRoom) (depth : Int) :
    term.freeBound depth ≤ (term.size - 1 - depth).toNat := by
  induction term generalizing depth with
  | var index =>
      rw [freeBound_var, size_var]
      omega
  | lam body inductionHypothesis =>
      have bodyLe := inductionHypothesis room (depth + 1)
      rw [freeBound_lam, size_lam]
      omega
  | app func arg funcHypothesis argHypothesis =>
      have funcLe := funcHypothesis room.1 depth
      have argLe := argHypothesis room.2 depth
      have funcNonneg := room.1.size_nonneg
      have argNonneg := room.2.size_nonneg
      rw [freeBound_app, size_app]
      omega
  | foreign size => exact Nat.zero_le _

theorem HasRoom.isValid_of_size_le {term : Term} (room : term.HasRoom) {bound : Nat}
    (sizeLe : term.size ≤ bound + 1) : term.IsValid bound := by
  have free := room.freeBound_le 0
  rw [IsValid]
  omega

theorem IsValid.mono {term : Term} {bound larger : Int} (valid : term.IsValid bound)
    (le : bound ≤ larger) : term.IsValid larger :=
  Int.le_trans valid le

end Term

open Term

variable {bound larger : Nat} (le : bound ≤ larger)

include le

theorem filter_classTerms (size : Nat) :
    (classTerms larger size).filter (fun term => term.IsValid bound) = classTerms bound size := by
  apply eq_of_pairwise_of_mem_iff
  · exact (pairwise_classTerms larger size).filter _
  · exact pairwise_classTerms bound size
  · intro term
    rw [List.mem_filter, mem_classTerms, mem_classTerms, inClass_natCast_iff, inClass_natCast_iff,
      decide_eq_true_iff]
    constructor
    · rintro ⟨⟨wellFormed, size_eq, _⟩, valid⟩
      exact ⟨wellFormed, size_eq, valid⟩
    · rintro ⟨wellFormed, size_eq, valid⟩
      exact ⟨⟨wellFormed, size_eq, valid.mono (Int.ofNat_le.mpr le)⟩, valid⟩

theorem classTerms_eq_of_size_le {size : Nat} (sizeLe : size ≤ bound + 1) :
    classTerms larger size = classTerms bound size := by
  rw [← filter_classTerms le, eq_comm, List.filter_eq_self]
  intro term member
  have inClass := mem_classTerms.mp member
  apply decide_eq_true
  apply inClass.wellFormed.hasRoom.isValid_of_size_le
  rw [inClass.size_eq]
  omega

end BinaryLambda
