import BinaryLambda.Term.Basic

/-!
The binary code of a term.

A variable is its index in ones and a zero, an abstraction is `00` before its
body, and an application is `01` before its two parts. A leaf from outside has
no code and fills its room with the letter `X`. The main statement is
`length_bits`: a code is as long as the size of its term, if each leaf from
outside has room for its letters.
-/

namespace BinaryLambda
namespace Term

def bitsOnto : Term → List Char → List Char
  | var index, rest => List.replicate index '1' ++ '0' :: rest
  | lam body, rest => '0' :: '0' :: body.bitsOnto rest
  | app func arg, rest => '0' :: '1' :: func.bitsOnto (arg.bitsOnto rest)
  | foreign size, rest => List.replicate size.toNat 'X' ++ rest

def bits (term : Term) : List Char := term.bitsOnto []

theorem bitsOnto_eq (term : Term) (rest : List Char) :
    term.bitsOnto rest = term.bits ++ rest := by
  have general : ∀ (term : Term) (first second : List Char),
      term.bitsOnto (first ++ second) = term.bitsOnto first ++ second := by
    intro term
    induction term with
    | var index => simp [bitsOnto]
    | lam body bodyHypothesis => simp [bitsOnto, bodyHypothesis]
    | app func arg funcHypothesis argHypothesis =>
        simp [bitsOnto, funcHypothesis, argHypothesis]
    | foreign size => simp [bitsOnto]
  simpa [bits] using general term [] rest

@[simp] theorem bits_var (index : Nat) :
    (var index).bits = List.replicate index '1' ++ ['0'] := rfl

@[simp] theorem bits_lam (body : Term) : (lam body).bits = '0' :: '0' :: body.bits := rfl

@[simp] theorem bits_app (func arg : Term) :
    (app func arg).bits = '0' :: '1' :: (func.bits ++ arg.bits) := by
  rw [bits, bitsOnto, bitsOnto_eq func]; rfl

@[simp] theorem bits_foreign (size : Int) :
    (foreign size).bits = List.replicate size.toNat 'X' := by
  simp [bits, bitsOnto]

def HasRoom : Term → Prop
  | var _ => True
  | lam body => body.HasRoom
  | app func arg => func.HasRoom ∧ arg.HasRoom
  | foreign size => 0 ≤ size

theorem WellFormed.hasRoom {term : Term} (wellFormed : term.WellFormed) : term.HasRoom := by
  induction term with
  | var index => trivial
  | lam body bodyHypothesis => exact bodyHypothesis wellFormed
  | app func arg funcHypothesis argHypothesis =>
      exact ⟨funcHypothesis wellFormed.1, argHypothesis wellFormed.2⟩
  | foreign size => exact wellFormed.elim

theorem length_bits {term : Term} (room : term.HasRoom) : term.bits.length = term.size := by
  induction term with
  | var index => simp
  | lam body bodyHypothesis =>
      have := bodyHypothesis room
      simp
      omega
  | app func arg funcHypothesis argHypothesis =>
      have := funcHypothesis room.1
      have := argHypothesis room.2
      simp
      omega
  | foreign size =>
      have : 0 ≤ size := room
      simp
      omega

theorem HasRoom.size_nonneg {term : Term} (room : term.HasRoom) : 0 ≤ term.size := by
  rw [← length_bits room]
  exact Int.natCast_nonneg _

def code (term : Term) : String := String.ofList term.bits

end Term
end BinaryLambda
