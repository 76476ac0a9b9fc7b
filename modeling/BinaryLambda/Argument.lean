import BinaryLambda.Error.Basic

/-!
Reading the arguments of an operation.

A bound, a size and a rank must be integers that are not negative, and a truth
value is no integer. The position in a sequence may be any integer. An integer
type is the type of all integers or a fixed-width column type.
-/

namespace BinaryLambda
namespace Literal

def natural (name : String) : Literal → Except Error Nat
  | int value => if value < 0 then .error (.negative name value) else .ok value.toNat
  | given => .error (.notAnInteger name given)

@[simp] theorem natural_ofNat (name : String) (value : Nat) :
    (int value).natural name = .ok value := by
  simp [natural]

theorem natural_of_neg (name : String) {value : Int} (negative : value < 0) :
    (int value).natural name = .error (.negative name value) := if_pos negative

theorem natural_eq_ok_iff {name : String} {given : Literal} {value : Nat} :
    given.natural name = .ok value ↔ given = int value := by
  constructor
  · intro read
    rcases given with (_ | _ | given | _ | _ | _ | _) | _ <;> simp [natural] at read
    split at read <;> simp at read
    simp
    omega
  · rintro rfl
    simp

theorem kind_of_natural_eq_error {name : String} {given : Literal} {error : Error}
    (refused : given.natural name = .error error) : error.kind = .invalidArgument := by
  unfold natural at refused
  split at refused
  · split at refused <;> cases refused
    rfl
  · cases refused
    rfl

def position : Literal → Except Error Int
  | int value => .ok value
  | given => .error (.positionNotInteger given)

/-- The integer type of a name, with or without an object made of it. -/
def columnType (name : String) : Except Error IntType :=
  match IntType.ofName? name with
  | some type => .ok type
  | none => .error (.notAnIntType (scalar (.columnType name)))

def intType : Literal → Except Error IntType
  | list _ => .error .listAsKey
  | scalar (.builtin "int") => .ok .unbounded
  | scalar (.columnType name) => columnType name
  | scalar (.columnTypeObject name) => columnType name
  | given => .error (.notAnIntType given)

def intTypeOrDefault : Literal → Except Error IntType
  | nothing => .ok .unbounded
  | given => given.intType

@[simp] theorem intType_literal (type : IntType) : type.literal.intType = .ok type := by
  cases named : type.name? with
  | none =>
      cases type with
      | unbounded => simp [IntType.literal, named, intType]
      | signed width => cases width <;> simp [IntType.name?] at named
      | unsigned width => cases width <;> simp [IntType.name?] at named
  | some name =>
      simp [IntType.literal, named, intType, columnType, IntType.ofName?_eq_some_iff.mpr named]

/-- Arguments by name: a name that is given again keeps its place and takes the
later value. -/
def byName (arguments : List (String × Literal)) : List (String × Literal) :=
  arguments.foldl
    (fun named (name, given) =>
      if named.any (fun argument => argument.1 == name) then
        named.map fun argument => if argument.1 == name then (name, given) else argument
      else
        named ++ [(name, given)])
    []

/-- All arguments are natural numbers; the first that is not decides the error. -/
def checkNaturals (arguments : List (String × Literal)) : Except Error Unit :=
  (byName arguments).forM fun (name, given) => discard (given.natural name)

end Literal
end BinaryLambda
