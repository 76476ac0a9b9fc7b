import BinaryLambda.Proofs.ClassSize.Growth
import BinaryLambda.Proofs.Term.InClass
import Mathlib.Data.List.Nodup
import Mathlib.Data.Set.Card

/-!
The terms of a class, one after the other.

`classTerms` lists a class in the order in which its terms are ranked: abstractions by
their bodies, then applications by the size of the function, by the function and by the
argument, and the variable last. A class bound below zero is listed in the same way.
The list has every term of the class (`mem_classTerms`) once (`nodup_classTerms`), so
its length, which the recurrence gives, is the number of these terms.
-/

namespace BinaryLambda

/-- The applications of functions to arguments; the arguments change fastest. -/
def applications (funcs args : List Term) : List Term :=
  funcs.flatMap fun func => args.map (Term.app func)

def classTerms : (bound : Int) → (size : Nat) → List Term
  | _, 0 => []
  | _, 1 => []
  | bound, body + 2 =>
      (classTerms (bound + 1) body).map Term.lam ++
        ((List.finRange (body + 1)).flatMap fun (func : Fin (body + 1)) =>
          applications (classTerms bound func) (classTerms bound (body - func))) ++
        List.replicate (variableCount bound (body + 2)) (.var (body + 1))
termination_by _ size => size

/-- The applications of a class whose parts have `parts` bits together and whose
function has fewer than `limit` bits. -/
def smallApplications (bound : Int) (parts limit : Nat) : List Term :=
  (List.range limit).flatMap fun func =>
    applications (classTerms bound func) (classTerms bound (parts - func))

@[simp] theorem classTerms_zero (bound : Int) : classTerms bound 0 = [] := by
  rw [classTerms]

@[simp] theorem classTerms_one (bound : Int) : classTerms bound 1 = [] := by
  rw [classTerms]

theorem classTerms_add_two (bound : Int) (body : Nat) :
    classTerms bound (body + 2) =
      (classTerms (bound + 1) body).map Term.lam ++ smallApplications bound body (body + 1) ++
        List.replicate (variableCount bound (body + 2)) (.var (body + 1)) := by
  have values : (List.finRange (body + 1)).map Fin.val = List.range (body + 1) := by
    apply List.ext_getElem
    · simp
    · intro place _ _
      simp
  rw [classTerms, smallApplications, ← values, List.flatMap_map]

@[simp] theorem mem_applications {funcs args : List Term} {term : Term} :
    term ∈ applications funcs args ↔ ∃ func ∈ funcs, ∃ arg ∈ args, Term.app func arg = term := by
  simp [applications]

@[simp] theorem mem_smallApplications {bound : Int} {parts limit : Nat} {term : Term} :
    term ∈ smallApplications bound parts limit ↔
      ∃ funcSize < limit, ∃ func ∈ classTerms bound funcSize,
        ∃ arg ∈ classTerms bound (parts - funcSize), Term.app func arg = term := by
  simp [smallApplications]

@[simp] theorem length_applications (funcs args : List Term) :
    (applications funcs args).length = funcs.length * args.length := by
  simp [applications, List.length_flatMap]

open Finset Term

theorem length_smallApplications (bound : Int) (parts limit : Nat) :
    (smallApplications bound parts limit).length =
      ∑ func ∈ range limit,
        (classTerms bound func).length * (classTerms bound (parts - func)).length := by
  simp only [smallApplications, List.length_flatMap, length_applications, sum_map_range]

theorem length_classTerms (bound : Int) (size : Nat) :
    (classTerms bound size).length = classSize bound size := by
  induction size using Nat.strongRecOn generalizing bound with
  | ind size inductionHypothesis =>
      match size with
      | 0 => simp
      | 1 => simp
      | body + 2 =>
          have small : (smallApplications bound body (body + 1)).length =
              convolution (classSize bound) body := by
            rw [length_smallApplications, convolution]
            apply sum_congr rfl
            intro func member
            have funcLe : func ≤ body := mem_range_succ_iff.mp member
            rw [inductionHypothesis func (by omega), inductionHypothesis (body - func) (by omega)]
          rw [classTerms_add_two, classSize_add_two]
          simp only [List.length_append, List.length_map, List.length_replicate, small,
            inductionHypothesis body (by omega) (bound + 1)]
          omega

theorem mem_classTerms {bound : Int} {size : Nat} {term : Term} :
    term ∈ classTerms bound size ↔ term.InClass bound size := by
  induction size using Nat.strongRecOn generalizing bound term with
  | ind size inductionHypothesis =>
      match size with
      | 0 =>
          have outside : ¬ term.InClass bound (0 : Nat) :=
            fun inClass => absurd inClass.two_le (by decide)
          simpa using outside
      | 1 =>
          have outside : ¬ term.InClass bound (1 : Nat) :=
            fun inClass => absurd inClass.two_le (by decide)
          simpa using outside
      | body + 2 =>
          rw [classTerms_add_two, List.mem_append, List.mem_append, List.mem_replicate]
          cases term with
          | var index =>
              rw [inClass_var_iff]
              simp [variableCount]
              omega
          | lam inner =>
              have bodies := @inductionHypothesis body (by omega) (bound + 1) inner
              rw [inClass_lam_iff]
              simp [bodies]
          | app func arg =>
              rw [inClass_app_iff]
              simp only [List.mem_map, mem_smallApplications, reduceCtorEq, and_false, exists_false,
                or_false, false_or, app.injEq, Order.lt_add_one_iff, exists_eq_right_right]
              refine exists_congr fun funcSize => and_congr_right fun funcSizeLe => ?_
              exact and_congr (inductionHypothesis _ (by omega)) (inductionHypothesis _ (by omega))
          | foreign leafSize =>
              simp [not_inClass_foreign]

theorem eq_of_classSize_eq_one {bound : Int} {size : Nat} {term other : Term}
    (one : classSize bound size = 1) (inClass : term.InClass bound size)
    (otherInClass : other.InClass bound size) : term = other := by
  obtain ⟨only, listed⟩ := List.length_eq_one_iff.mp ((length_classTerms bound size).trans one)
  rw [← mem_classTerms, listed, List.mem_singleton] at inClass otherInClass
  exact inClass.trans otherInClass.symm

theorem nodup_applications {funcs args : List Term} (funcsNodup : funcs.Nodup)
    (argsNodup : args.Nodup) : (applications funcs args).Nodup := by
  rw [applications, List.nodup_flatMap]
  constructor
  · exact fun func _ => argsNodup.map fun first second same => (app.inj same).2
  · apply funcsNodup.imp
    intro func other different
    rw [Function.onFun, List.disjoint_left]
    intro term inFirst inSecond
    obtain ⟨_, _, rfl⟩ := List.mem_map.mp inFirst
    obtain ⟨_, _, same⟩ := List.mem_map.mp inSecond
    exact different (app.inj same).1.symm

theorem nodup_smallApplications {bound : Int} {parts limit : Nat}
    (nodup : ∀ size ≤ parts, (classTerms bound size).Nodup) (limitLe : limit ≤ parts + 1) :
    (smallApplications bound parts limit).Nodup := by
  rw [smallApplications, List.nodup_flatMap]
  constructor
  · intro func member
    have funcLt : func < limit := List.mem_range.mp member
    exact nodup_applications (nodup func (by omega)) (nodup _ (by omega))
  · apply List.nodup_range.imp
    intro funcSize other different
    rw [Function.onFun, List.disjoint_left]
    intro term inFirst inSecond
    obtain ⟨func, funcMember, _, _, rfl⟩ := mem_applications.mp inFirst
    obtain ⟨_, otherMember, _, _, ⟨⟩⟩ := mem_applications.mp inSecond
    have size_eq := (mem_classTerms.mp funcMember).size_eq
    rw [(mem_classTerms.mp otherMember).size_eq] at size_eq
    omega

theorem nodup_classTerms (bound : Int) (size : Nat) : (classTerms bound size).Nodup := by
  induction size using Nat.strongRecOn generalizing bound with
  | ind size inductionHypothesis =>
      match size with
      | 0 => simp
      | 1 => simp
      | body + 2 =>
          have bodies : ((classTerms (bound + 1) body).map lam).Nodup := by
            apply (inductionHypothesis body (by omega) (bound + 1)).map
            intro first second same
            exact lam.inj same
          have parts : (smallApplications bound body (body + 1)).Nodup :=
            nodup_smallApplications (fun size sizeLe => inductionHypothesis size (by omega) bound)
              (le_refl _)
          have leaves :
              (List.replicate (variableCount bound (body + 2)) (var (body + 1))).Nodup := by
            rw [List.nodup_replicate, variableCount]
            split <;> omega
          rw [classTerms_add_two, List.nodup_append', List.nodup_append']
          refine ⟨⟨bodies, parts, ?_⟩, leaves, ?_⟩
          · rw [List.disjoint_left]
            intro term inBodies inParts
            obtain ⟨_, _, rfl⟩ := List.mem_map.mp inBodies
            simp at inParts
          · rw [List.disjoint_left]
            intro term inOthers inLeaves
            obtain ⟨_, rfl⟩ := List.mem_replicate.mp inLeaves
            simp at inOthers

/-- The recurrence gives the number of terms in a class, whatever its bound. -/
theorem encard_inClass (bound : Int) (size : Nat) :
    {term : Term | term.InClass bound size}.encard = classSize bound size := by
  have listed : {term : Term | term.InClass bound size} = (classTerms bound size).toFinset := by
    ext term
    simp [mem_classTerms]
  rw [listed, Set.encard_coe_eq_coe_finsetCard, List.toFinset_card_of_nodup (nodup_classTerms _ _),
    length_classTerms]

end BinaryLambda
