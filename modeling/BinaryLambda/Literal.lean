import BinaryLambda.Floating.Text
import BinaryLambda.Text.Quoted

/-!
Values as a caller may hand them in, and their text.

Operations take numbers, but a caller can pass anything; what is refused is
quoted in the error. `Literal.quoted` is the text of a value inside such a
message, and `Literal.plain` differs from it in leaving a bare text unquoted.
-/

namespace BinaryLambda

inductive Scalar where
  | nothing
  | bool (value : Bool)
  | int (value : Int)
  /-- A floating-point number, by its shortest decimal text. -/
  | decimal (digits : String)
  | text (value : String)
  /-- A type of the caller's language, such as the one of all integers. -/
  | builtin (name : String)
  /-- A type of table columns, such as `Int8`. -/
  | columnType (name : String)
  /-- An object that stands for a type of table columns. -/
  | columnTypeObject (name : String)
  deriving DecidableEq, Repr, Inhabited, Hashable

def Scalar.quoted : Scalar → String
  | nothing => "None"
  | bool true => "True"
  | bool false => "False"
  | int value => toString value
  | decimal digits => digits
  | text value => Text.quoted value
  | builtin name => "<class '" ++ name ++ "'>"
  | columnType name => name
  | columnTypeObject name => name

def Scalar.typeName : Scalar → String
  | nothing => "NoneType"
  | bool _ => "bool"
  | int _ => "int"
  | decimal _ => "float"
  | text _ => "str"
  | builtin _ => "type"
  | columnType _ => "DataTypeClass"
  | columnTypeObject name => name

/-- The integer that a value equals, if it equals one: a truth value equals 0 or
1, and a floating-point number the integer that it stands for. -/
def Scalar.integer? : Scalar → Option Int
  | bool false => some 0
  | bool true => some 1
  | int value => some value
  | decimal digits => (Floating.ofText digits).integer?
  | _ => none

inductive Literal where
  | scalar (value : Scalar)
  | list (items : List Literal)
  deriving Repr, Inhabited

namespace Literal

instance : Coe Scalar Literal := ⟨scalar⟩

@[match_pattern] abbrev int (value : Int) : Literal := scalar (.int value)

@[match_pattern] abbrev nothing : Literal := scalar .nothing

mutual

protected def decEq : (first second : Literal) → Decidable (first = second)
  | scalar first, scalar second => decidable_of_iff (first = second) (by simp)
  | list firsts, list seconds =>
      have := Literal.decEqAll firsts seconds
      decidable_of_iff (firsts = seconds) (by simp)
  | scalar _, list _ | list _, scalar _ => isFalse nofun

protected def decEqAll : (firsts seconds : List Literal) → Decidable (firsts = seconds)
  | [], [] => isTrue rfl
  | first :: firsts, second :: seconds =>
      have := Literal.decEq first second
      have := Literal.decEqAll firsts seconds
      decidable_of_iff (first = second ∧ firsts = seconds) (by simp)
  | [], _ :: _ | _ :: _, [] => isFalse nofun

end

instance : DecidableEq Literal := Literal.decEq

mutual

def quoted : Literal → String
  | scalar value => value.quoted
  | list items => "[" ++ ", ".intercalate (quotedAll items) ++ "]"

def quotedAll : List Literal → List String
  | [] => []
  | item :: items => item.quoted :: quotedAll items

end

theorem quotedAll_eq_map (items : List Literal) : quotedAll items = items.map quoted := by
  induction items with
  | nil => rfl
  | cons item items inductionHypothesis => simp [quotedAll, inductionHypothesis]

def integer? : Literal → Option Int
  | scalar value => value.integer?
  | list _ => none

@[simp] theorem integer?_int (value : Int) : (int value).integer? = some value := rfl

def isList : Literal → Bool
  | scalar _ => false
  | list _ => true

def typeName : Literal → String
  | scalar value => value.typeName
  | list _ => "list"

def plain : Literal → String
  | scalar (.text value) => value
  | other => other.quoted

end Literal
end BinaryLambda
