/-!
Lambda terms in de Bruijn form, their size in binary and the free variables they need.

An index counts binders outwards from 1: `lam (var 1)` is the identity, and
`lam (lam (var 2))` drops its second argument. The size of a term is the length
of its binary code (`Term.Code`), wherever it has one. `freeBound` measures how far the indices of a
term reach past the binders around it, and so which classes the term is in: the
class with bound `m` and size `n` holds the well-formed terms of size `n` that
use at most `m` free variables.

The text of a term is each constructor with its fields by name, as in
`Lam(body=Var(index=1))`; a leaf from outside is written `X` and its size.
-/

namespace BinaryLambda

inductive Term where
  | var (index : Nat)
  | lam (body : Term)
  | app (func arg : Term)
  /-- A leaf from outside the calculus. It has the size that it says it has, be it
  below zero, and uses no variable. -/
  | foreign (size : Int)
  deriving DecidableEq, Repr, Inhabited

namespace Term

def size : Term → Int
  | var index => index + 1
  | lam body => 2 + body.size
  | app func arg => 2 + func.size + arg.size
  | foreign size => size

@[simp] theorem size_var (index : Nat) : (var index).size = index + 1 := rfl

@[simp] theorem size_lam (body : Term) : (lam body).size = 2 + body.size := rfl

@[simp] theorem size_app (func arg : Term) :
    (app func arg).size = 2 + func.size + arg.size := rfl

@[simp] theorem size_foreign (size : Int) : (foreign size).size = size := rfl

/-- How many free variables the term needs below `depth` binders. Each lambda
inside it is one binder more; a negative depth stands for missing binders. -/
def freeBound : Term → (depth : Int) → Nat
  | var index, depth => (index - depth).toNat
  | lam body, depth => body.freeBound (depth + 1)
  | app func arg, depth => max (func.freeBound depth) (arg.freeBound depth)
  | foreign _, _ => 0

@[simp] theorem freeBound_var (index : Nat) (depth : Int) :
    (var index).freeBound depth = (index - depth).toNat := rfl

@[simp] theorem freeBound_lam (body : Term) (depth : Int) :
    (lam body).freeBound depth = body.freeBound (depth + 1) := rfl

@[simp] theorem freeBound_app (func arg : Term) (depth : Int) :
    (app func arg).freeBound depth = max (func.freeBound depth) (arg.freeBound depth) := rfl

@[simp] theorem freeBound_foreign (size : Int) (depth : Int) :
    (foreign size).freeBound depth = 0 := rfl

def IsValid (term : Term) (bound : Int) : Prop := (term.freeBound 0 : Int) ≤ bound

instance (term : Term) (bound : Int) : Decidable (term.IsValid bound) :=
  inferInstanceAs (Decidable (_ ≤ _))

def IsClosed (term : Term) : Prop := term.freeBound 0 = 0

instance (term : Term) : Decidable term.IsClosed :=
  inferInstanceAs (Decidable (_ = _))

/-- The term is built from variables, abstractions and applications alone, and
every index is at least 1. -/
def WellFormed : Term → Prop
  | var index => 1 ≤ index
  | lam body => body.WellFormed
  | app func arg => func.WellFormed ∧ arg.WellFormed
  | foreign _ => False

instance decidableWellFormed : (term : Term) → Decidable term.WellFormed
  | var index => inferInstanceAs (Decidable (1 ≤ index))
  | lam body => decidableWellFormed body
  | app func arg =>
      have := decidableWellFormed func
      have := decidableWellFormed arg
      inferInstanceAs (Decidable (_ ∧ _))
  | foreign _ => inferInstanceAs (Decidable False)

@[simp] theorem wellFormed_var (index : Nat) : (var index).WellFormed ↔ 1 ≤ index := Iff.rfl

@[simp] theorem wellFormed_lam (body : Term) : (lam body).WellFormed ↔ body.WellFormed := Iff.rfl

@[simp] theorem wellFormed_app (func arg : Term) :
    (app func arg).WellFormed ↔ func.WellFormed ∧ arg.WellFormed := Iff.rfl

@[simp] theorem not_wellFormed_foreign (size : Int) : ¬ (foreign size).WellFormed := id

/-- The class of a bound and a size. A bound below zero stands for binders that
are missing: then even the outermost indices reach into the term. -/
structure InClass (bound size : Int) (term : Term) : Prop where
  wellFormed : term.WellFormed
  size_eq : term.size = size
  freeBound_eq : term.freeBound bound = 0

def writeAfter (written : String) : Term → String
  | var index => written ++ "Var(index=" ++ toString index ++ ")"
  | lam body => body.writeAfter (written ++ "Lam(body=") ++ ")"
  | app func arg =>
      arg.writeAfter (func.writeAfter (written ++ "App(func=") ++ ", arg=") ++ ")"
  | foreign size => written ++ "X" ++ toString size

def text (term : Term) : String := term.writeAfter ""

end Term
end BinaryLambda
