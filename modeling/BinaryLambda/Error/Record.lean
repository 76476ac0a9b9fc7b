import BinaryLambda.Error.Basic

/-!
Error records: an error as an object that anyone may build by hand.

A record keeps its fields as they were given, so it has a text for people, a
text that shows its fields, and the names of the families it belongs to. What
the fields may be is not checked when a record is made; a record whose message
is no text fails when its text is asked for.
-/

namespace BinaryLambda

inductive RecordKind where
  /-- An error of the library that says no more than its arguments. -/
  | plain
  | invalidArgument
  | rankOutOfRange
  | numericOverflow
  deriving DecidableEq, Repr, Inhabited

namespace RecordKind

def name : RecordKind → String
  | plain => "BlcountError"
  | invalidArgument => "InvalidArgument"
  | rankOutOfRange => "RankOutOfRange"
  | numericOverflow => "NumericOverflow"

/-- The families of a record, from its own to the widest. -/
def lineage : RecordKind → List String
  | plain => ["BlcountError", "Exception"]
  | invalidArgument => ["InvalidArgument", "BlcountError", "ValueError", "Exception"]
  | rankOutOfRange => ["RankOutOfRange", "BlcountError", "IndexError", "LookupError", "Exception"]
  | numericOverflow =>
      ["NumericOverflow", "BlcountError", "OverflowError", "ArithmeticError", "Exception"]

def requiredFields : RecordKind → List String
  | plain => []
  | invalidArgument => ["message"]
  | rankOutOfRange => ["rank", "count"]
  | numericOverflow => ["m", "n", "dtype", "value"]

/-- The fields that may be left out, and are nothing then. -/
def optionalFields : RecordKind → List String
  | rankOutOfRange => ["m", "n"]
  | _ => []

end RecordKind

inductive ErrorRecord where
  | plain (arguments : List Literal)
  | invalidArgument (message : Literal)
  | rankOutOfRange (rank count bound size : Literal)
  | numericOverflow (bound size type value : Literal)
  deriving DecidableEq, Repr, Inhabited

namespace ErrorRecord

def ofArguments : RecordKind → List Literal → Except Error ErrorRecord
  | .plain, arguments => .ok (plain arguments)
  | .invalidArgument, [message] => .ok (invalidArgument message)
  | .rankOutOfRange, [rank, count] => .ok (rankOutOfRange rank count .nothing .nothing)
  | .rankOutOfRange, [rank, count, bound] => .ok (rankOutOfRange rank count bound .nothing)
  | .rankOutOfRange, [rank, count, bound, size] => .ok (rankOutOfRange rank count bound size)
  | .numericOverflow, [bound, size, type, value] => .ok (numericOverflow bound size type value)
  | kind, arguments =>
      let required := kind.requiredFields
      if arguments.length < required.length then
        .error (.missingFields kind.name (required.drop arguments.length))
      else
        .error (.extraFields kind.name required.length
          (required.length + kind.optionalFields.length) arguments.length)

def kind : ErrorRecord → RecordKind
  | plain _ => .plain
  | invalidArgument _ => .invalidArgument
  | rankOutOfRange .. => .rankOutOfRange
  | numericOverflow .. => .numericOverflow

def text : ErrorRecord → Except Error String
  | plain [] => .ok ""
  | plain [argument] => .ok argument.plain
  | plain arguments => .ok ("(" ++ ", ".intercalate (arguments.map Literal.quoted) ++ ")")
  | invalidArgument (.scalar (.text message)) => .ok message
  | invalidArgument message => .error (.notAText message)
  | rankOutOfRange rank count bound size => .ok (Error.rankOutOfRangeText rank count bound size)
  | numericOverflow bound size type value => .ok (Error.overflowText bound size type value)

def fields : ErrorRecord → List Literal
  | plain arguments => arguments
  | invalidArgument message => [message]
  | rankOutOfRange rank count bound size => [rank, count, bound, size]
  | numericOverflow bound size type value => [bound, size, type, value]

/-- The name of the record and its fields; a plain record has no names for them. -/
def quoted (record : ErrorRecord) : String :=
  let values := record.fields.map Literal.quoted
  let shown := match record with
    | plain _ => values
    | _ => (record.kind.requiredFields ++ record.kind.optionalFields).zipWith
        (fun name value => name ++ "=" ++ value) values
  record.kind.name ++ "(" ++ ", ".intercalate shown ++ ")"

end ErrorRecord
end BinaryLambda
