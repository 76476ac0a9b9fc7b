import BinaryLambda.Proofs.Term.Listing

/-!
The order of the terms in a class.

Abstractions come first, in the order of their bodies; then applications, by the size
of the function, then by the function and then by the argument; variables come last. The
order looks at the terms alone and knows no bound. Every class is listed in it
(`pairwise_classTerms`).
-/

namespace BinaryLambda
namespace Term

def Precedes : Term → Term → Prop
  | lam body, lam other => body.Precedes other
  | lam _, app _ _ => True
  | lam _, var _ => True
  | app func arg, app otherFunc otherArg =>
      func.size < otherFunc.size ∨ func.size = otherFunc.size ∧
        (func.Precedes otherFunc ∨ func = otherFunc ∧ arg.Precedes otherArg)
  | app _ _, var _ => True
  | _, _ => False

instance decidablePrecedes : (term other : Term) → Decidable (term.Precedes other)
  | lam body, lam other => decidablePrecedes body other
  | lam _, app _ _ => inferInstanceAs (Decidable True)
  | lam _, var _ => inferInstanceAs (Decidable True)
  | lam _, foreign _ => inferInstanceAs (Decidable False)
  | app func arg, app otherFunc otherArg =>
      have := decidablePrecedes func otherFunc
      have := decidablePrecedes arg otherArg
      inferInstanceAs (Decidable (_ ∨ _ ∧ (_ ∨ _ ∧ _)))
  | app _ _, var _ => inferInstanceAs (Decidable True)
  | app _ _, lam _ => inferInstanceAs (Decidable False)
  | app _ _, foreign _ => inferInstanceAs (Decidable False)
  | var _, _ => inferInstanceAs (Decidable False)
  | foreign _, _ => inferInstanceAs (Decidable False)

@[simp] theorem precedes_lam_lam (body other : Term) :
    (lam body).Precedes (lam other) ↔ body.Precedes other := Iff.rfl

@[simp] theorem precedes_lam_app (body func arg : Term) : (lam body).Precedes (app func arg) :=
  trivial

@[simp] theorem precedes_lam_var (body : Term) (index : Nat) : (lam body).Precedes (var index) :=
  trivial

@[simp] theorem precedes_app_app (func arg otherFunc otherArg : Term) :
    (app func arg).Precedes (app otherFunc otherArg) ↔
      func.size < otherFunc.size ∨ func.size = otherFunc.size ∧
        (func.Precedes otherFunc ∨ func = otherFunc ∧ arg.Precedes otherArg) := Iff.rfl

@[simp] theorem precedes_app_var (func arg : Term) (index : Nat) :
    (app func arg).Precedes (var index) := trivial

theorem Precedes.asymm {term other : Term} (precedes : term.Precedes other) :
    ¬ other.Precedes term := by
  induction term generalizing other with
  | var index => exact precedes.elim
  | lam body inductionHypothesis =>
      cases other with
      | var index => exact id
      | lam otherBody => exact inductionHypothesis precedes
      | app func arg => exact id
      | foreign size => exact id
  | app func arg funcHypothesis argHypothesis =>
      cases other with
      | var index => exact id
      | lam body => exact precedes.elim
      | app otherFunc otherArg =>
          rcases precedes with smaller | ⟨size_eq, funcPrecedes | ⟨rfl, argPrecedes⟩⟩
          · rintro (larger | ⟨size_eq, _⟩)
            · exact Int.lt_asymm smaller larger
            · exact absurd size_eq (Int.ne_of_gt smaller)
          · rintro (larger | ⟨_, behind | ⟨rfl, _⟩⟩)
            · exact absurd size_eq (Int.ne_of_gt larger)
            · exact funcHypothesis funcPrecedes behind
            · exact funcHypothesis funcPrecedes funcPrecedes
          · rintro (larger | ⟨_, behind | ⟨_, behind⟩⟩)
            · exact absurd larger (Int.lt_irrefl _)
            · exact funcHypothesis behind behind
            · exact argHypothesis argPrecedes behind
      | foreign size => exact id
  | foreign size => exact precedes.elim

end Term

open Term

theorem pairwise_applications {funcs args : List Term} (funcsInOrder : funcs.Pairwise Precedes)
    (argsInOrder : args.Pairwise Precedes)
    (oneSize : ∀ func ∈ funcs, ∀ other ∈ funcs, func.size = other.size) :
    (applications funcs args).Pairwise Precedes := by
  rw [applications, List.pairwise_flatMap]
  constructor
  · intro func _
    rw [List.pairwise_map]
    apply argsInOrder.imp
    intro arg other precedes
    exact .inr ⟨rfl, .inr ⟨rfl, precedes⟩⟩
  · apply funcsInOrder.imp_of_mem
    intro func other member otherMember precedes term inFirst second inSecond
    obtain ⟨_, _, rfl⟩ := List.mem_map.mp inFirst
    obtain ⟨_, _, rfl⟩ := List.mem_map.mp inSecond
    exact .inr ⟨oneSize func member other otherMember, .inl precedes⟩

/-- The blocks of applications follow each other by the size of the function. -/
theorem pairwise_smallApplications {bound : Int} {parts limit : Nat}
    (inOrder : ∀ size ≤ parts, (classTerms bound size).Pairwise Precedes)
    (limitLe : limit ≤ parts + 1) : (smallApplications bound parts limit).Pairwise Precedes := by
  rw [smallApplications, List.pairwise_flatMap]
  constructor
  · intro funcSize member
    have funcSizeLt : funcSize < limit := List.mem_range.mp member
    apply pairwise_applications (inOrder _ (by omega)) (inOrder _ (Nat.sub_le _ _))
    intro func funcMember other otherMember
    rw [(mem_classTerms.mp funcMember).size_eq, (mem_classTerms.mp otherMember).size_eq]
  · apply List.pairwise_lt_range.imp
    intro funcSize otherSize smaller term inFirst other inSecond
    obtain ⟨func, funcMember, arg, _, rfl⟩ := mem_applications.mp inFirst
    obtain ⟨otherFunc, otherMember, otherArg, _, rfl⟩ := mem_applications.mp inSecond
    rw [precedes_app_app, (mem_classTerms.mp funcMember).size_eq,
      (mem_classTerms.mp otherMember).size_eq]
    exact .inl (Int.ofNat_lt.mpr smaller)

theorem pairwise_classTerms (bound : Int) (size : Nat) :
    (classTerms bound size).Pairwise Precedes := by
  induction size using Nat.strongRecOn generalizing bound with
  | ind size inductionHypothesis =>
      match size with
      | 0 => simp
      | 1 => simp
      | body + 2 =>
          have bodies : ((classTerms (bound + 1) body).map lam).Pairwise Precedes := by
            rw [List.pairwise_map]
            exact inductionHypothesis body (by omega) (bound + 1)
          have parts : (smallApplications bound body (body + 1)).Pairwise Precedes :=
            pairwise_smallApplications
              (fun size sizeLe => inductionHypothesis size (by omega) bound) (le_refl _)
          have leaves : (List.replicate (variableCount bound (body + 2))
              (var (body + 1))).Pairwise Precedes := by
            rw [variableCount]
            split <;> simp
          rw [classTerms_add_two, List.pairwise_append, List.pairwise_append]
          refine ⟨⟨bodies, parts, ?_⟩, leaves, ?_⟩
          · intro term inBodies other inParts
            obtain ⟨_, _, rfl⟩ := List.mem_map.mp inBodies
            obtain ⟨_, _, _, _, _, _, rfl⟩ := mem_smallApplications.mp inParts
            exact precedes_lam_app _ _ _
          · intro term inOthers other inLeaves
            obtain ⟨_, rfl⟩ := List.mem_replicate.mp inLeaves
            rcases List.mem_append.mp inOthers with inBodies | inParts
            · obtain ⟨_, _, rfl⟩ := List.mem_map.mp inBodies
              exact precedes_lam_var _ _
            · obtain ⟨_, _, _, _, _, _, rfl⟩ := mem_smallApplications.mp inParts
              exact precedes_app_var _ _ _

theorem eq_of_pairwise_of_mem_iff {terms others : List Term} (inOrder : terms.Pairwise Precedes)
    (othersInOrder : others.Pairwise Precedes) (mem_iff : ∀ term, term ∈ terms ↔ term ∈ others) :
    terms = others := by
  have nodup : ∀ {list : List Term}, list.Pairwise Precedes → list.Nodup := by
    intro list listInOrder
    apply listInOrder.imp
    rintro term _ precedes rfl
    exact precedes.asymm precedes
  apply List.Perm.eq_of_pairwise _ inOrder othersInOrder
  · exact (List.perm_ext_iff_of_nodup (nodup inOrder) (nodup othersInOrder)).mpr mem_iff
  · intro term other _ _ precedes behind
    exact absurd behind precedes.asymm

end BinaryLambda
