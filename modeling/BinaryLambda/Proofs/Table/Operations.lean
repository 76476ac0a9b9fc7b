import BinaryLambda.Proofs.Table.Computation
import BinaryLambda.Query

/-!
All operations reach a table through its counts.

Ranking, unranking, drawing, opening a sequence, working with one and exporting a
matrix look at a table and change it by counting classes alone; the matrix also shows
the type. So what counting respects, they all respect: a relation between two tables
that makes counts agree makes the answers of all operations agree.
-/

namespace BinaryLambda

def Query.ShowsType : Query → Prop
  | .matrix _ _ => True
  | _ => False

namespace Counting

@[simp] theorem on_reading {α : Type} (result : Except Error α) (table : CountTable) :
    (reading result).on table = (result, table) := by
  cases result <;> rfl

theorem Respects.reading {α : Type} {related : CountTable → CountTable → Prop}
    {excused : Error → Prop} (result : Except Error α) :
    Respects related excused (reading result) := by
  cases result with
  | ok value => exact .pure value
  | error error => exact .throw error

@[simp] theorem withClass_ofNat {α : Type} (bound size : Nat) (next : Nat → Nat → Counting α) :
    withClass (.int bound) (.int size) next = next bound size := by
  simp only [withClass, Literal.natural_ofNat]
  rfl

theorem answer_unrank_ofNat (bound size rank : Nat) :
    (Query.unrank (.int bound) (.int size) (.int rank)).answer = (do
      return .term (← unrank bound size rank)) := by
  simp only [Query.answer, withClass_ofNat, Literal.natural_ofNat]
  rfl

theorem answer_rank_ofNat (bound : Nat) (term : Term) :
    (Query.rank (.int bound) (.ofTerm term)).answer = (do
      return .number (← rank bound term)) := by
  simp only [Query.answer, Draft.term_ofTerm, Literal.natural_ofNat]
  rfl

theorem on_withClass_of_neg {α : Type} {bound size : Int} (negative : bound < 0 ∨ size < 0)
    (next : Nat → Nat → Counting α) (table : CountTable) :
    ∃ error, (withClass (.int bound) (.int size) next).on table = (.error error, table) ∧
      error.kind = .invalidArgument := by
  rw [withClass]
  rcases Int.lt_or_le bound 0 with boundNegative | boundNonneg
  · rw [Literal.natural_of_neg "m" boundNegative]
    exact ⟨.negative "m" bound, rfl, rfl⟩
  · have sizeNegative : size < 0 := negative.resolve_left (Int.not_lt.mpr boundNonneg)
    obtain ⟨bound, rfl⟩ := Int.eq_ofNat_of_zero_le boundNonneg
    rw [Literal.natural_ofNat, Literal.natural_of_neg "n" sizeNegative]
    exact ⟨.negative "n" size, rfl, rfl⟩

theorem Respects.withClass {α : Type} {related : CountTable → CountTable → Prop}
    {excused : Error → Prop} (bound size : Literal) {next : Nat → Nat → Counting α}
    (each : ∀ bound size, Respects related excused (next bound size)) :
    Respects related excused (withClass bound size next) := by
  refine (Respects.reading _).bind fun bound => ?_
  exact (Respects.reading _).bind fun size => each bound size

/-- Drawing asks the generator for one number, unless the class is empty. -/
theorem sample_eq (generator : Generator) (bound size : Nat) :
    sample generator bound size = (do
      let total ← count bound size
      if total = 0 then
        throw (.rankOutOfRange 1 0 bound size)
      else
        let term ← unrankFrom bound size (generator ⟨1, total⟩)
        return (term, [⟨1, total⟩])) := by
  rw [sample, Sampling.term, StateT.run_bind, StateT.run_monadLift, bind_assoc]
  simp only [pure_bind]
  refine congrArg (count bound size >>= ·) (funext fun total => ?_)
  split
  · rfl
  · rfl

/-- Related tables count alike, up to errors that are excused and that no operation
catches. -/
structure Uniform (related : CountTable → CountTable → Prop) (excused : Error → Prop) : Prop where
  count : ∀ bound size, Respects related excused (count bound size)
  uncaught : ∀ error, excused error → error.kind ≠ .invalidArgument

namespace Uniform

variable {related : CountTable → CountTable → Prop} {excused : Error → Prop}

variable (uniform : Uniform related excused)

include uniform

theorem respects_slotFrom {size : Nat} (bound funcSize argSize rank : Nat)
    (size_eq : funcSize + argSize = size) :
    Respects related excused (slotFrom bound funcSize argSize rank size_eq) := by
  induction argSize generalizing funcSize rank with
  | zero =>
      rw [slotFrom]
      refine (uniform.count bound 0).bind fun args => ?_
      refine (uniform.count bound funcSize).bind fun funcs => ?_
      split
      · exact .pure _
      · exact .throw _
  | succ smaller inductionHypothesis =>
      rw [slotFrom]
      refine (uniform.count bound (smaller + 1)).bind fun args => ?_
      refine (uniform.count bound funcSize).bind fun funcs => ?_
      split
      · exact .pure _
      · exact inductionHypothesis _ _ _

theorem respects_isVariableRank (bound size rank : Nat) :
    Respects related excused (isVariableRank bound size rank) := by
  unfold isVariableRank
  split
  · exact (uniform.count bound size).bind fun total => .pure _
  · exact .pure _

theorem respects_choose (bound size rank : Nat) :
    Respects related excused (choose bound size rank) := by
  unfold choose
  refine (uniform.respects_isVariableRank bound size rank).bind fun isVariable => ?_
  split
  · exact .pure _
  · split
    · next body =>
        refine (uniform.count (bound + 1) body).bind fun abstractions => ?_
        split
        · exact .pure _
        · exact (uniform.respects_slotFrom _ _ _ _ _).bind fun slot => .pure _
    · exact .throw _

theorem respects_unrankFrom (bound size rank : Nat) :
    Respects related excused (unrankFrom bound size rank) := by
  induction size using Nat.strongRecOn generalizing bound rank with
  | ind size inductionHypothesis =>
      rw [unrankFrom]
      refine (uniform.respects_choose bound size rank).bind fun choice => ?_
      cases choice with
      | «variable» => exact .pure _
      | abstraction rank =>
          exact (inductionHypothesis _ (by omega) _ _).bind fun body => .pure _
      | application slot =>
          have size_eq := slot.size_eq
          refine (inductionHypothesis _ (by omega) _ _).bind fun func => ?_
          exact (inductionHypothesis _ (by omega) _ _).bind fun arg => .pure _

theorem respects_unrank (bound size rank : Nat) :
    Respects related excused (unrank bound size rank) := by
  unfold unrank
  split
  · exact .throw _
  · refine (uniform.count bound size).bind fun total => ?_
    split
    · exact .throw _
    · exact uniform.respects_unrankFrom bound size rank

theorem respects_countAt (bound : Nat) (size : Int) :
    Respects related excused (countAt bound size) := by
  unfold countAt
  split
  · exact .throw _
  · exact uniform.count bound size.toNat

theorem respects_smallerFunctions (bound funcSize : Nat) (parts : Int) :
    Respects related excused (smallerFunctions bound funcSize parts) := by
  apply Respects.foldlM
  intro total smaller
  refine (uniform.count bound smaller).bind fun funcs => ?_
  exact (uniform.respects_countAt bound _).bind fun args => .pure _

theorem respects_rankFrom (bound : Nat) (term : Term) :
    Respects related excused (rankFrom bound term) := by
  induction term generalizing bound with
  | var index =>
      unfold rankFrom
      split
      · exact .throw _
      · exact uniform.count bound (index + 1)
  | lam body inductionHypothesis => exact inductionHypothesis (bound + 1)
  | app func arg funcHypothesis argHypothesis =>
      refine (uniform.respects_countAt _ _).bind fun abstractions => ?_
      refine (uniform.respects_smallerFunctions _ _ _).bind fun smaller => ?_
      refine (uniform.respects_countAt _ _).bind fun args => ?_
      refine (funcHypothesis bound).bind fun funcRank => ?_
      exact (argHypothesis bound).bind fun argRank => .pure _
  | foreign size => exact .throw _

theorem respects_rank (bound : Nat) (term : Term) :
    Respects related excused (rank bound term) := by
  unfold rank
  split
  · exact uniform.respects_rankFrom bound term
  · exact .throw _

theorem respects_sample (generator : Generator) (bound size : Nat) :
    Respects related excused (sample generator bound size) := by
  rw [sample_eq]
  refine (uniform.count bound size).bind fun total => ?_
  split
  · exact .throw _
  · exact (uniform.respects_unrankFrom bound size _).bind fun term => .pure _

theorem respects_sequence (bound size : Nat) :
    Respects related excused (Counting.sequence bound size) :=
  (uniform.count bound size).bind fun _ => .pure _

theorem respects_countSizes (bound size : Nat) :
    Respects related excused (countSizes bound size) :=
  Respects.mapM fun smaller => uniform.count bound smaller

theorem respects_matrix
    (intType_eq : ∀ first second, related first second → first.intType = second.intType)
    (bound size : Nat) : Respects related excused (matrix bound size) := by
  refine Respects.bind (Respects.mapM fun smaller => uniform.respects_countSizes smaller size)
    fun columns => ?_
  intro first second relation
  have same := intType_eq first second relation
  refine .inr ⟨?_, relation⟩
  change Except.ok _ = Except.ok _
  rw [same]

theorem respects_answer (query : Query)
    (intType_eq : query.ShowsType →
      ∀ first second, related first second → first.intType = second.intType) :
    Respects related excused query.answer := by
  cases query with
  | count bound size =>
      apply Respects.withClass
      intro bound size
      exact (uniform.count bound size).bind fun value => .pure _
  | unrank bound size given =>
      apply Respects.withClass
      intro bound size
      refine (Respects.reading _).bind fun number => ?_
      exact (uniform.respects_unrank bound size number).bind fun term => .pure _
  | rank bound term =>
      refine (Respects.reading _).bind fun term => ?_
      refine (Respects.reading _).bind fun bound => ?_
      exact (uniform.respects_rank bound term).bind fun value => .pure _
  | sample bound size generator =>
      apply Respects.withClass
      intro bound size
      exact (uniform.respects_sample generator bound size).bind fun drawn => .pure _
  | sequence bound size =>
      apply Respects.withClass
      intro bound size
      exact (uniform.respects_sequence bound size).bind fun sequence => .pure _
  | matrix bound size =>
      apply Respects.withClass
      intro bound size
      exact (uniform.respects_matrix (intType_eq trivial) bound size).bind fun frame => .pure _

theorem respects_get (sequence : TermSequence) (rank : Int) :
    Respects related excused (sequence.get rank) := by
  unfold TermSequence.get
  split
  · exact uniform.respects_unrankFrom _ _ _
  · exact .throw _

theorem respects_index (sequence : TermSequence) (term : Term) :
    Respects related excused (sequence.index term) := by
  unfold TermSequence.index
  split
  · exact uniform.respects_rank _ _
  · exact .throw _

theorem respects_contains (sequence : TermSequence) (term : Term) :
    Respects related excused (sequence.contains term) := by
  unfold TermSequence.contains
  split
  · refine Respects.tryCatch ?_ ?_ ?_
    · exact (uniform.respects_rank _ _).bind fun _ => .pure true
    · intro error
      split
      · exact .pure false
      · exact .throw error
    · intro error allowed
      exact if_neg (uniform.uncaught error allowed)
  · exact .pure false

theorem respects_terms (sequence : TermSequence) (direction : Direction) :
    Respects related excused (sequence.terms direction) := by
  have walk : Respects related excused ((sequence.ranks direction).mapM sequence.term) :=
    Respects.mapM fun rank => uniform.respects_unrankFrom _ _ _
  cases direction with
  | forward =>
      unfold TermSequence.terms
      cases sequence.listLength with
      | ok length => exact walk
      | error error => exact .throw error
  | backward => exact walk

theorem respects_sequenceAnswer (sequence : TermSequence) (query : SequenceQuery) :
    Respects related excused (query.answer sequence) := by
  cases query with
  | get rank =>
      refine (Respects.reading _).bind fun number => ?_
      exact (uniform.respects_get sequence number).bind fun term => .pure _
  | index term =>
      refine (Respects.reading _).bind fun term => ?_
      exact (uniform.respects_index sequence term).bind fun rank => .pure _
  | contains term =>
      refine (Respects.reading _).bind fun term => ?_
      exact (uniform.respects_contains sequence term).bind fun inside => .pure _
  | containsValue value => exact .pure _
  | terms direction =>
      exact (uniform.respects_terms sequence direction).bind fun terms => .pure _

theorem respects_advance (cursor : Cursor) (times : Nat) :
    Respects related excused (cursor.advance times) := by
  induction times generalizing cursor with
  | zero => exact .pure _
  | succ times inductionHypothesis =>
      unfold Cursor.advance
      split
      · exact .pure _
      · next rank _ =>
          refine (uniform.respects_unrankFrom _ _ rank).bind fun term => ?_
          exact (inductionHypothesis cursor.moved).bind fun rest => .pure _

end Uniform
end Counting
end BinaryLambda
