import BinaryLambda.IntType
import BinaryLambda.Literal
import BinaryLambda.Term.Basic

/-!
What can go wrong, by cause.

Each cause keeps what its message needs. `Error.kind` sorts the causes the way
callers tell them apart: refused arguments, ranks outside a class, counts that
do not fit their type, and three kinds that belong to the language of the
caller (a bad value, a bad type, a length beyond what can be indexed).
-/

namespace BinaryLambda

inductive Error where
  | notAnInteger (name : String) (given : Literal)
  | negative (name : String) (value : Int)
  | rankZero
  | notAnIntType (given : Literal)
  /-- A list where a value is looked up among others: lists cannot be. -/
  | listAsKey
  /-- Two values, by the names of their types, that stand in no order. -/
  | notOrdered (relation left right : String)
  /-- A size that is a floating-point number, where sizes are counted through. -/
  | floatingSize
  | tooManyFree (term : Term) (bound : Nat)
  | indexZero
  | wrongSize (term : Term) (size : Nat)
  | rankOutOfRange (rank : Int) (count bound size : Nat)
  /-- A count that does not fit its type. The bound is kept as it was handed in. -/
  | overflow (bound : Literal) (size : Int) (type : IntType) (value : Nat)
  | negativeIndex (index : Int)
  | notATerm (term : Term)
  | positionNotInteger (given : Literal)
  | lengthTooLarge
  | notAText (given : Literal)
  | missingFields (record : String) (fields : List String)
  | extraFields (record : String) (least most given : Nat)
  deriving DecidableEq, Repr, Inhabited

def IntType.literal (type : IntType) : Literal :=
  match type.name? with
  | some name => .scalar (.columnType name)
  | none => .scalar (.builtin "int")

def IntType.text (type : IntType) : String := type.literal.quoted

namespace Error

inductive Kind where
  | invalidArgument
  | rankOutOfRange
  | numericOverflow
  | badValue
  | badType
  | lengthOverflow
  deriving DecidableEq, Repr

def kind : Error → Kind
  | notAnInteger .. | negative .. | rankZero | notAnIntType _ | tooManyFree .. | indexZero
  | wrongSize .. => .invalidArgument
  | rankOutOfRange .. => .rankOutOfRange
  | overflow .. => .numericOverflow
  | negativeIndex _ => .badValue
  | listAsKey | notOrdered .. | floatingSize | notATerm _ | positionNotInteger _ | notAText _
  | missingFields .. | extraFields .. => .badType
  | lengthTooLarge => .lengthOverflow

/-- The wording of a rank outside its class; the class is left out if it has no
bound. -/
def rankOutOfRangeText (rank count bound size : Literal) : String :=
  let place := match bound with
    | .nothing => ""
    | bound => " for m=" ++ bound.plain ++ ", n=" ++ size.plain
  "rank " ++ rank.plain ++ " outside [1, " ++ count.plain ++ "]" ++ place

def overflowText (bound size type value : Literal) : String :=
  "S(" ++ bound.plain ++ "," ++ size.plain ++ ") = " ++ value.plain ++ " does not fit in " ++
    type.plain ++ "; bound n or count with int_type=int"

def enumeration : List String → String
  | [] => ""
  | [name] => Text.quoted name
  | [first, second] => Text.quoted first ++ " and " ++ Text.quoted second
  | names =>
      ", ".intercalate (names.dropLast.map Text.quoted) ++ ", and " ++
        Text.quoted (names.getLastD "")

def fieldRange (least most : Nat) : String :=
  if least = most then toString (most + 1)
  else "from " ++ toString (least + 1) ++ " to " ++ toString (most + 1)

def message : Error → String
  | notAnInteger name given => name ++ " must be an integer, got " ++ given.quoted
  | negative name value => name ++ " must be non-negative, got " ++ toString value
  | rankZero => "k must be at least 1, got 0"
  | notAnIntType given => "int_type must be int or a polars integer dtype, got " ++ given.quoted
  | listAsKey => "unhashable type: 'list'"
  | notOrdered relation left right =>
      Text.quoted relation ++ " not supported between instances of " ++
        Text.quoted left ++ " and " ++ Text.quoted right
  | floatingSize => "'float' object cannot be interpreted as an integer"
  | tooManyFree term bound =>
      term.text ++ " needs more than " ++ toString bound ++ " free variables"
  | indexZero => "Var(0) has no binary encoding"
  | wrongSize term size =>
      term.text ++ " has size " ++ toString term.size ++ ", not " ++ toString size
  | rankOutOfRange rank count bound size =>
      rankOutOfRangeText (.int rank) (.int count) (.int bound) (.int size)
  | overflow bound size type value =>
      overflowText bound (.int size) type.literal (.int value)
  | negativeIndex index => "Variable index must be non-negative, got " ++ toString index
  | notATerm term => "not a term: " ++ term.text
  | positionNotInteger given => "sequence index must be an integer, got " ++ given.quoted
  | lengthTooLarge => "cannot fit 'int' into an index-sized integer"
  | notAText given => "__str__ returned non-string (type " ++ given.typeName ++ ")"
  | missingFields record fields =>
      record ++ ".__init__() missing " ++ toString fields.length ++
        " required positional argument" ++ (if fields.length = 1 then "" else "s") ++ ": " ++
        enumeration fields
  | extraFields record least most given =>
      record ++ ".__init__() takes " ++ fieldRange least most ++ " positional argument" ++
        (if most = 0 then "" else "s") ++ " but " ++ toString (given + 1) ++ " were given"

/-- The error with the bound that it is about written as the given value, if both
equal one integer. -/
def showing (given : Literal) : Error → Error
  | overflow bound size type value =>
      let same := given.integer?.isSome ∧ given.integer? = bound.integer?
      overflow (if same then given else bound) size type value
  | other => other

theorem showing_int (given bound size : Int) (type : IntType) (value : Nat) :
    (overflow (.int bound) size type value).showing (.int given) =
      overflow (.int bound) size type value := by
  by_cases same : given = bound <;> simp [showing, same]

end Error
end BinaryLambda
