import BinaryLambda.Error.Basic

/-!
Drafts of terms: terms as a caller writes them, with any integer for an index.

A draft becomes a term from left to right, and the first index below zero is the
error. Every term has a draft, and `Draft.term_ofTerm` says that reading it back
gives the term.
-/

namespace BinaryLambda

inductive Draft where
  | var (index : Int)
  | lam (body : Draft)
  | app (func arg : Draft)
  | foreign (size : Int)
  deriving DecidableEq, Repr, Inhabited

namespace Draft

def term : Draft → Except Error Term
  | var index => if index < 0 then .error (.negativeIndex index) else .ok (.var index.toNat)
  | lam body => return .lam (← body.term)
  | app func arg => return .app (← func.term) (← arg.term)
  | foreign size => .ok (.foreign size)

def ofTerm : Term → Draft
  | .var index => var index
  | .lam body => lam (ofTerm body)
  | .app func arg => app (ofTerm func) (ofTerm arg)
  | .foreign size => foreign size

@[simp] theorem term_ofTerm (source : Term) : (ofTerm source).term = .ok source := by
  induction source with
  | var index => simp [ofTerm, term]
  | lam body bodyHypothesis =>
      simp only [ofTerm, term, bodyHypothesis]
      rfl
  | app func arg funcHypothesis argHypothesis =>
      simp only [ofTerm, term, funcHypothesis, argHypothesis]
      rfl
  | foreign size => rfl

end Draft
end BinaryLambda
