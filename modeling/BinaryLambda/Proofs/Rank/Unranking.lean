import BinaryLambda.Proofs.Rank.HasRank
import BinaryLambda.Proofs.Table.Counts
import BinaryLambda.Unrank

/-!
Unranking finds the term of a rank.

Unranking counts the class and the classes that its terms are made of, and nothing
else. So it gives the right term wherever these counts are answered rightly
(`unrankFrom_answers`), be it that the class fits the type of the table or that they
are all in the table.
-/

namespace BinaryLambda
namespace Counting

open Term

namespace Ready

variable {kind : CountTable → Prop} {ready : Nat → Nat → Prop}

variable (counts : Ready kind ready)

include counts

theorem isVariableRank_answers {bound size : Nat} (isReady : ready bound size) (rank : Nat) :
    Answers kind (isVariableRank bound size rank)
      (.ok (decide (size ≤ bound + 1) && rank == classSize bound size)) := by
  rw [isVariableRank]
  split
  · next admitted =>
      rw [decide_eq_true admitted, Bool.true_and]
      exact (counts.answers isReady).bind_ok (.pure _)
  · next tooLarge =>
      rw [decide_eq_false tooLarge, Bool.false_and]
      exact .pure false

/-- In its own block the rank of a pair is divided by the number of arguments. -/
theorem slotFrom_answers_self {bound size argSize rank : Nat} {slot : Slot size}
    (funcReady : ready bound slot.funcSize) (argReady : ready bound slot.argSize)
    (func : 1 ≤ slot.funcRank ∧ slot.funcRank ≤ classSize bound slot.funcSize)
    (arg : 1 ≤ slot.argRank ∧ slot.argRank ≤ classSize bound slot.argSize)
    (size_eq : slot.funcSize + argSize = size)
    (rank_eq : rank = (slot.funcRank - 1) * classSize bound slot.argSize + slot.argRank) :
    Answers kind (slotFrom bound slot.funcSize argSize rank size_eq) (.ok slot) := by
  obtain rfl : argSize = slot.argSize := Nat.add_left_cancel (size_eq.trans slot.size_eq.symm)
  obtain ⟨funcSize, argSize, funcRank, argRank, size_eq⟩ := slot
  simp only at funcReady argReady func arg rank_eq ⊢
  subst rank_eq
  obtain ⟨funcPlace, rfl⟩ := Nat.exists_eq_add_of_le' func.1
  obtain ⟨argPlace, rfl⟩ := Nat.exists_eq_add_of_le' arg.1
  have inside : (funcPlace + 1 - 1) * classSize bound argSize + (argPlace + 1) ≤
      classSize bound funcSize * classSize bound argSize :=
    calc (funcPlace + 1 - 1) * classSize bound argSize + (argPlace + 1)
        ≤ funcPlace * classSize bound argSize + classSize bound argSize :=
          Nat.add_le_add_left arg.2 _
      _ = (funcPlace + 1) * classSize bound argSize := (Nat.succ_mul _ _).symm
      _ ≤ classSize bound funcSize * classSize bound argSize := Nat.mul_le_mul_right _ func.2
  have place_eq : (funcPlace + 1 - 1) * classSize bound argSize + (argPlace + 1) - 1 =
      argPlace + classSize bound argSize * funcPlace := by
    rw [Nat.add_sub_cancel, Nat.mul_comm]
    omega
  unfold slotFrom
  refine (counts.answers argReady).bind_ok ((counts.answers funcReady).bind_ok ?_)
  rw [if_pos inside, place_eq, Nat.add_mul_div_left _ _ (by omega), Nat.add_mul_mod_self_left,
    Nat.div_eq_of_lt (by omega), Nat.mod_eq_of_lt (by omega), Nat.zero_add]
  exact .pure _

/-- A rank behind a block is looked for in the blocks after it. -/
theorem slotFrom_answers_skip {bound size funcSize argSize rank : Nat}
    {answer : Except Error (Slot size)} {size_eq : funcSize + (argSize + 1) = size}
    (funcReady : ready bound funcSize) (argReady : ready bound (argSize + 1))
    (behind : classSize bound funcSize * classSize bound (argSize + 1) < rank)
    (rest : Answers kind (slotFrom bound (funcSize + 1) argSize
      (rank - classSize bound funcSize * classSize bound (argSize + 1)) (by omega)) answer) :
    Answers kind (slotFrom bound funcSize (argSize + 1) rank size_eq) answer := by
  rw [slotFrom]
  refine (counts.answers argReady).bind_ok ((counts.answers funcReady).bind_ok ?_)
  rw [if_neg (Nat.not_le_of_lt behind)]
  exact rest

/-- The search finds the slot of a rank from every block that is not behind it. -/
theorem slotFrom_answers {bound size : Nat} {slot : Slot size}
    (partsReady : ∀ part ≤ size, ready bound part)
    (func : 1 ≤ slot.funcRank ∧ slot.funcRank ≤ classSize bound slot.funcSize)
    (arg : 1 ≤ slot.argRank ∧ slot.argRank ≤ classSize bound slot.argSize)
    {funcSize argSize rank : Nat} (size_eq : funcSize + argSize = size)
    (funcSizeLe : funcSize ≤ slot.funcSize)
    (rank_eq : applicationsBelow bound size funcSize + rank =
      applicationsBelow bound size slot.funcSize +
        ((slot.funcRank - 1) * classSize bound slot.argSize + slot.argRank)) :
    Answers kind (slotFrom bound funcSize argSize rank size_eq) (.ok slot) := by
  have slot_eq := slot.size_eq
  induction argSize generalizing funcSize rank with
  | zero =>
      obtain rfl : funcSize = slot.funcSize := by omega
      exact counts.slotFrom_answers_self (partsReady _ (by omega)) (partsReady _ (by omega)) func
        arg size_eq (Nat.add_left_cancel rank_eq)
  | succ argSize inductionHypothesis =>
      rcases Nat.eq_or_lt_of_le funcSizeLe with rfl | earlier
      · exact counts.slotFrom_answers_self (partsReady _ (by omega)) (partsReady _ (by omega)) func
          arg size_eq (Nat.add_left_cancel rank_eq)
      · have next : applicationsBelow bound size (funcSize + 1) =
            applicationsBelow bound size funcSize +
              classSize bound funcSize * classSize bound (argSize + 1) := by
          rw [applicationsBelow_succ, show size - funcSize = argSize + 1 by omega]
        have before : applicationsBelow bound size (funcSize + 1) ≤
            applicationsBelow bound size slot.funcSize := applicationsBelow_mono earlier
        refine counts.slotFrom_answers_skip (partsReady _ (by omega)) (partsReady _ (by omega))
          (by omega) ?_
        exact inductionHypothesis (by omega) earlier (by omega)

theorem isVariableRank_answers_false {bound body rank : Nat} {term : Term}
    (isReady : ready bound (body + 2)) (ranked : HasRank bound (body + 2) rank term)
    (ne : var (body + 1) ≠ term) :
    Answers kind (isVariableRank bound (body + 2) rank) (.ok false) := by
  have answers := counts.isVariableRank_answers isReady rank
  by_cases admitted : body + 2 ≤ bound + 1
  · have before := ranked.lt_of_ne_var (by omega) ne
    rwa [beq_eq_false_iff_ne.mpr (Nat.ne_of_lt before), Bool.and_false] at answers
  · rwa [decide_eq_false admitted, Bool.false_and] at answers

theorem choose_var_answers {bound size rank index : Nat} (isReady : ready bound size)
    (ranked : HasRank bound size rank (var index)) :
    Answers kind (choose bound size rank) (.ok .variable) := by
  obtain ⟨inClass, rfl⟩ := hasRank_var_iff.mp ranked
  obtain ⟨_, rfl, admitted⟩ := inClass_var_iff.mp inClass
  have answers := counts.isVariableRank_answers isReady (classSize bound (index + 1))
  rw [decide_eq_true (by omega), beq_self_eq_true, Bool.and_self] at answers
  unfold choose
  exact answers.bind_ok (.pure _)

theorem choose_lam_answers {bound body rank : Nat} {inner : Term} (isReady : ready bound (body + 2))
    (ranked : HasRank bound (body + 2) rank (lam inner)) :
    Answers kind (choose bound (body + 2) rank) (.ok (.abstraction rank)) := by
  have among : rank ≤ classSize (bound + 1 : Nat) body := (hasRank_lam_iff.mp ranked).le
  rw [choose]
  refine (counts.isVariableRank_answers_false isReady ranked (by simp)).bind_ok ?_
  refine (counts.answers (counts.bodies isReady)).bind_ok ?_
  rw [if_pos among]
  exact .pure _

theorem choose_app_answers {bound parts rank : Nat} {slot : Slot parts} {func arg : Term}
    (isReady : ready bound (parts + 2)) (ranked : HasRank bound (parts + 2) rank (app func arg))
    (funcRanked : HasRank bound slot.funcSize slot.funcRank func)
    (argRanked : HasRank bound slot.argSize slot.argRank arg)
    (rank_eq : rank = classSize (bound + 1) parts + applicationsBelow bound parts slot.funcSize +
      (slot.funcRank - 1) * classSize bound slot.argSize + slot.argRank) :
    Answers kind (choose bound (parts + 2) rank) (.ok (.application slot)) := by
  have argOneLe := argRanked.one_le
  have none_below : applicationsBelow bound parts 0 = 0 := rfl
  have behind : ¬ rank ≤ classSize (bound + 1 : Nat) parts := by
    rw [Nat.cast_succ]
    omega
  rw [choose]
  refine (counts.isVariableRank_answers_false isReady ranked (by simp)).bind_ok ?_
  refine (counts.answers (counts.bodies isReady)).bind_ok ?_
  rw [if_neg behind]
  refine (counts.slotFrom_answers (fun part partLe => counts.parts isReady partLe)
    ⟨funcRanked.one_le, funcRanked.le⟩ ⟨argRanked.one_le, argRanked.le⟩ (Nat.zero_add _)
    (Nat.zero_le _) ?_).bind_ok (.pure _)
  rw [Nat.cast_succ]
  omega

theorem unrankFrom_answers {bound size rank : Nat} {term : Term} (isReady : ready bound size)
    (ranked : HasRank bound size rank term) :
    Answers kind (unrankFrom bound size rank) (.ok term) := by
  induction term generalizing bound size rank with
  | var index =>
      obtain ⟨_, rfl, _⟩ := inClass_var_iff.mp ranked.inClass
      rw [unrankFrom]
      exact (counts.choose_var_answers isReady ranked).bind_ok (.pure _)
  | lam inner inductionHypothesis =>
      obtain ⟨body, rfl⟩ := Nat.exists_eq_add_of_le' ranked.two_le
      rw [unrankFrom]
      refine (counts.choose_lam_answers isReady ranked).bind_ok ?_
      have innerRanked : HasRank (bound + 1 : Nat) body rank inner := hasRank_lam_iff.mp ranked
      exact (inductionHypothesis (counts.bodies isReady) innerRanked).bind_ok (.pure _)
  | app func arg funcHypothesis argHypothesis =>
      obtain ⟨parts, rfl⟩ := Nat.exists_eq_add_of_le' ranked.two_le
      obtain ⟨funcSize, funcSizeLe, funcRank, argRank, funcRanked, argRanked, rank_eq⟩ :=
        hasRank_app_iff.mp ranked
      let slot : Slot parts := ⟨funcSize, parts - funcSize, funcRank, argRank, by omega⟩
      have chosen : Answers kind (choose bound (parts + 2) rank) (.ok (.application slot)) :=
        counts.choose_app_answers isReady ranked funcRanked argRanked rank_eq
      have funcReady := counts.parts isReady funcSizeLe
      have argReady := counts.parts isReady (Nat.sub_le parts funcSize)
      rw [unrankFrom]
      refine chosen.bind_ok ((funcHypothesis funcReady funcRanked).bind_ok ?_)
      exact (argHypothesis argReady argRanked).bind_ok (.pure _)
  | foreign leafSize => exact absurd ranked.inClass not_inClass_foreign

theorem unrank_answers {bound size rank : Nat} {term : Term} (isReady : ready bound size)
    (ranked : HasRank bound size rank term) : Answers kind (unrank bound size rank) (.ok term) := by
  rw [unrank, if_neg (Nat.ne_of_gt ranked.one_le)]
  refine (counts.answers isReady).bind_ok ?_
  rw [if_neg (Nat.not_lt_of_le ranked.le)]
  exact counts.unrankFrom_answers isReady ranked

end Ready
end Counting
end BinaryLambda
