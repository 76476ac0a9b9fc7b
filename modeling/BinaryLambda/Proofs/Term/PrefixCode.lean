import BinaryLambda.Term.Code
import Mathlib.Data.List.Infix
import Mathlib.Data.Set.Function

/-!
The codes of terms are a prefix code.

Read from the left, the code of a well-formed term shows where it ends: whatever follows
it, no other term can have been written there (`WellFormed.bits_append_inj`). So a sequence
of codes without marks between them can be split in one way only. With the index zero this
fails: the code of such a variable begins like those of abstractions and applications.

A code has the length of its term exactly if all leaves from outside have room for their
letters (`hasRoom_iff_length_bits`).
-/

namespace BinaryLambda
namespace Term

theorem size_le_length_bits (term : Term) : term.size ≤ term.bits.length := by
  induction term with
  | var index => simp
  | lam body inductionHypothesis =>
      rw [size_lam, bits_lam, List.length_cons, List.length_cons]
      omega
  | app func arg funcHypothesis argHypothesis =>
      rw [size_app, bits_app, List.length_cons, List.length_cons, List.length_append]
      omega
  | foreign size =>
      rw [size_foreign, bits_foreign, List.length_replicate]
      omega

theorem hasRoom_iff_length_bits {term : Term} :
    term.HasRoom ↔ (term.bits.length : Int) = term.size := by
  constructor
  · exact length_bits
  · intro length_eq
    induction term with
    | var index => trivial
    | lam body inductionHypothesis =>
        apply inductionHypothesis
        rw [size_lam, bits_lam, List.length_cons, List.length_cons] at length_eq
        omega
    | app func arg funcHypothesis argHypothesis =>
        -- Neither part can make up for letters that the other has too many.
        have funcLe := func.size_le_length_bits
        have argLe := arg.size_le_length_bits
        rw [size_app, bits_app, List.length_cons, List.length_cons, List.length_append]
          at length_eq
        exact ⟨funcHypothesis (by omega), argHypothesis (by omega)⟩
    | foreign size =>
        rw [size_foreign, bits_foreign, List.length_replicate] at length_eq
        change 0 ≤ size
        omega

theorem ones_append_inj {index other : Nat} {rest otherRest : List Char}
    (same : List.replicate index '1' ++ '0' :: rest =
      List.replicate other '1' ++ '0' :: otherRest) : index = other ∧ rest = otherRest := by
  induction index generalizing other with
  | zero =>
      cases other with
      | zero => exact ⟨rfl, List.tail_eq_of_cons_eq same⟩
      | succ other => simp [List.replicate_succ] at same
  | succ index inductionHypothesis =>
      cases other with
      | zero => simp [List.replicate_succ] at same
      | succ other =>
          obtain ⟨index_eq, rest_eq⟩ := inductionHypothesis (List.tail_eq_of_cons_eq same)
          exact ⟨congrArg Nat.succ index_eq, rest_eq⟩

theorem WellFormed.exists_bits_var {index : Nat} (wellFormed : (var index).WellFormed) :
    ∃ bits, (var index).bits = '1' :: bits := by
  obtain ⟨fewer, rfl⟩ := Nat.exists_eq_add_of_le' wellFormed
  exact ⟨_, rfl⟩

/-- Two well-formed terms whose codes stand at the start of one text are the same term. -/
theorem WellFormed.bits_append_inj {term other : Term} (wellFormed : term.WellFormed)
    (otherFormed : other.WellFormed) {rest otherRest : List Char}
    (same : term.bits ++ rest = other.bits ++ otherRest) :
    term = other ∧ rest = otherRest := by
  induction term generalizing other rest otherRest with
  | var index =>
      cases other with
      | var otherIndex =>
          rw [bits_var, bits_var, List.append_assoc, List.append_assoc] at same
          obtain ⟨rfl, rest_eq⟩ := ones_append_inj same
          exact ⟨rfl, rest_eq⟩
      | lam body =>
          obtain ⟨bits, bits_eq⟩ := wellFormed.exists_bits_var
          simp [bits_eq] at same
      | app func arg =>
          obtain ⟨bits, bits_eq⟩ := wellFormed.exists_bits_var
          simp [bits_eq] at same
      | foreign size => exact otherFormed.elim
  | lam body inductionHypothesis =>
      cases other with
      | var otherIndex =>
          obtain ⟨bits, bits_eq⟩ := otherFormed.exists_bits_var
          simp [bits_eq] at same
      | lam otherBody =>
          have bodies : body.bits ++ rest = otherBody.bits ++ otherRest := by simpa using same
          have bodyFormed : otherBody.WellFormed := otherFormed
          obtain ⟨rfl, rest_eq⟩ := inductionHypothesis wellFormed bodyFormed bodies
          exact ⟨rfl, rest_eq⟩
      | app func arg => simp at same
      | foreign size => exact otherFormed.elim
  | app func arg funcHypothesis argHypothesis =>
      cases other with
      | var otherIndex =>
          obtain ⟨bits, bits_eq⟩ := otherFormed.exists_bits_var
          simp [bits_eq] at same
      | lam otherBody => simp at same
      | app otherFunc otherArg =>
          have parts : func.bits ++ (arg.bits ++ rest) =
              otherFunc.bits ++ (otherArg.bits ++ otherRest) := by simpa using same
          -- What follows the function is the argument, so its code is at the start as well.
          obtain ⟨rfl, args⟩ := funcHypothesis wellFormed.1 otherFormed.1 parts
          obtain ⟨rfl, rest_eq⟩ := argHypothesis wellFormed.2 otherFormed.2 args
          exact ⟨rfl, rest_eq⟩
      | foreign size => exact otherFormed.elim
  | foreign size => exact wellFormed.elim

theorem WellFormed.eq_of_bits_prefix {term other : Term} (wellFormed : term.WellFormed)
    (otherFormed : other.WellFormed) (isPrefix : term.bits <+: other.bits) : term = other := by
  obtain ⟨rest, same⟩ := isPrefix
  rw [← List.append_nil other.bits] at same
  exact (wellFormed.bits_append_inj otherFormed same).1

theorem bits_ne_nil (term : Term) (wellFormed : term.WellFormed) : term.bits ≠ [] := by
  cases term with
  | var index => simp
  | lam body => simp
  | app func arg => simp
  | foreign size => exact wellFormed.elim

/-- A text is the sequence of codes of at most one list of terms. -/
theorem eq_of_flatMap_bits_eq {terms others : List Term}
    (wellFormed : ∀ term ∈ terms, term.WellFormed)
    (othersFormed : ∀ other ∈ others, other.WellFormed)
    (same : terms.flatMap bits = others.flatMap bits) : terms = others := by
  induction terms generalizing others with
  | nil =>
      cases others with
      | nil => rfl
      | cons other others =>
          rw [List.flatMap_nil, List.flatMap_cons, eq_comm, List.append_eq_nil_iff] at same
          exact absurd same.1 (other.bits_ne_nil (othersFormed other List.mem_cons_self))
  | cons term terms inductionHypothesis =>
      cases others with
      | nil =>
          rw [List.flatMap_nil, List.flatMap_cons, List.append_eq_nil_iff] at same
          exact absurd same.1 (term.bits_ne_nil (wellFormed term List.mem_cons_self))
      | cons other others =>
          obtain ⟨termFormed, termsFormed⟩ := List.forall_mem_cons.mp wellFormed
          obtain ⟨otherFormed, laterFormed⟩ := List.forall_mem_cons.mp othersFormed
          rw [List.flatMap_cons, List.flatMap_cons] at same
          obtain ⟨rfl, rest_eq⟩ := termFormed.bits_append_inj otherFormed same
          rw [inductionHypothesis termsFormed laterFormed rest_eq]

end Term

open Term

/-- Codes are as long as the sizes of their terms, where leaves from outside have room. No code
of a well-formed term continues that of another, so different terms have different codes, and
the codes of several terms in a row can be told apart. -/
theorem bits_prefix_code :
    (∀ term : Term, term.HasRoom ↔ (term.bits.length : Int) = term.size) ∧
    (∀ term other : Term, term.WellFormed → other.WellFormed →
      term.bits <+: other.bits → term = other) ∧
    Set.InjOn bits {term : Term | term.WellFormed} ∧
    ∀ terms others : List Term, (∀ term ∈ terms, term.WellFormed) →
      (∀ other ∈ others, other.WellFormed) →
      terms.flatMap bits = others.flatMap bits → terms = others := by
  refine ⟨fun term => hasRoom_iff_length_bits, ?_, ?_, ?_⟩
  · exact fun term other wellFormed otherFormed => wellFormed.eq_of_bits_prefix otherFormed
  · intro term wellFormed other otherFormed same
    exact WellFormed.eq_of_bits_prefix wellFormed otherFormed (same ▸ List.prefix_rfl)
  · exact fun terms others => eq_of_flatMap_bits_eq

/-- The identity applied to a variable: its code is that of no other term, and it cannot be
taken for the codes of an abstraction and a variable. -/
theorem bits_prefix_code_identity :
    let applied := app (lam (var 1)) (var 1)
    (∀ other : Term, other.WellFormed → applied.bits = other.bits → applied = other) ∧
      [applied, lam (var 1), var 1].flatMap bits ≠
        [applied, lam (app (var 1) (var 1))].flatMap bits ∧
      (applied.bits.length : Int) = applied.size := by
  intro applied
  obtain ⟨length_iff, prefixes, _, lists⟩ := bits_prefix_code
  refine ⟨?_, ?_, (length_iff applied).mp ⟨trivial, trivial⟩⟩
  · exact fun other otherFormed same => prefixes applied other (by decide) otherFormed
      (same ▸ List.prefix_rfl)
  · intro same
    exact absurd (lists _ _ (by decide) (by decide) same) (by decide)

/-- Codes with the index zero can be read in two ways. -/
example : (app (lam (var 0)) (var 0)).bits = (app (var 0) (lam (var 0))).bits := by decide

end BinaryLambda
