import BinaryLambda.Floating.Basic

/-!
The decimal text of a floating-point number.

A number is written with as few digits as read back as the same number, and of
several such texts as the nearest one. Reading takes the decimal that the text
denotes and rounds it.
-/

namespace BinaryLambda
namespace Floating

/-! Reading -/

/-- The two parts of a text around the first occurrence of a mark. -/
def cut (mark : Char) (text : List Char) : List Char × List Char :=
  (text.takeWhile (· ≠ mark), (text.dropWhile (· ≠ mark)).drop 1)

def natural? (digits : List Char) : Option Nat :=
  if digits.all Char.isDigit then
    some (digits.foldl (fun value digit => 10 * value + (digit.toNat - '0'.toNat)) 0)
  else
    none

def signed? : List Char → Option Int
  | '-' :: digits => (natural? digits).map fun value => -(value : Int)
  | '+' :: digits => (natural? digits).map fun value => (value : Int)
  | digits => (natural? digits).map fun value => (value : Int)

/-- The number that a decimal without a sign denotes. -/
def decimal? (text : List Char) : Option Rat := do
  let (mantissa, exponent) := cut 'e' text
  let (whole, fraction) := cut '.' mantissa
  let digits ← natural? (whole ++ fraction)
  return digits * (10 : Rat) ^ ((← signed? exponent) - fraction.length)

/-- The number with a text; a text that is none of a number gives none. -/
def ofText (text : String) : Floating :=
  let magnitude (negative : Bool) (rest : List Char) : Floating :=
    if rest = "inf".toList then infinite negative
    else match decimal? rest with
      | some value => finite (round (if negative then -value else value))
      | none => undefined []
  match text.toList with
  | '-' :: rest => magnitude true rest
  | rest => magnitude false rest

/-! Writing -/

structure Scientific where
  digits : Nat
  exponent : Int
  deriving DecidableEq, Repr, Inhabited

namespace Scientific

def value (number : Scientific) : Rat := number.digits * (10 : Rat) ^ number.exponent

/-- The digits without zeros at the end, and the exponent of the first of them. -/
def normal (number : Scientific) : List Char × Int :=
  let written := Nat.toDigits 10 number.digits
  let significant := (written.reverse.dropWhile (· = '0')).reverse
  (significant, number.exponent + written.length - 1)

/-- Exponents from -4 to 15 are written by the place of the point, which has a
digit on either side. -/
def text (number : Scientific) : String :=
  let (digits, exponent) := number.normal
  let zeros (count : Int) : List Char := List.replicate count.toNat '0'
  let pointed (whole fraction : List Char) : String :=
    String.ofList (whole ++ '.' :: if fraction.isEmpty then ['0'] else fraction)
  if exponent < -4 ∨ 16 ≤ exponent then
    let mantissa := match digits with
      | [] => ""
      | [digit] => String.ofList [digit]
      | first :: rest => pointed [first] rest
    let sign := if exponent < 0 then "-" else "+"
    let size := exponent.natAbs
    mantissa ++ "e" ++ sign ++ (if size < 10 then "0" else "") ++ toString size
  else if exponent < 0 then
    pointed ['0'] (zeros (-exponent - 1) ++ digits)
  else
    let whole := exponent.toNat + 1
    pointed (digits.take whole ++ zeros (whole - digits.length)) (digits.drop whole)

end Scientific

/-- The nearest of the decimals with a number of digits, followed by the nearest
on the other side of the value. -/
def neighbours (value : Rat) (places : Nat) : List Scientific :=
  let exponent := logarithm 10 value + 1 - places
  let scaled := value / (10 : Rat) ^ exponent
  let nearest := nearestInt scaled
  let other := if nearest ≤ scaled then nearest + 1 else nearest - 1
  [⟨nearest.toNat, exponent⟩, ⟨other.toNat, exponent⟩]

/-- The shortest decimal that reads back as a positive number. Every
floating-point number has one with at most seventeen digits. -/
def shortest? (value : Rat) : Option Scientific :=
  ((List.range 17).flatMap fun passed => neighbours value (passed + 1)).find? fun decimal =>
    round decimal.value = value

theorem round_of_shortest? {value : Rat} {decimal : Scientific}
    (found : shortest? value = some decimal) : round decimal.value = value := by
  simpa using List.find?_some found

def magnitudeText (value : Rat) : String := ((shortest? value).getD default).text

def text : Floating → String
  | finite value =>
      if value = 0 then "0.0"
      else if value < 0 then "-" ++ magnitudeText (-value)
      else magnitudeText value
  | infinite true => "-inf"
  | infinite false => "inf"
  | undefined _ => "nan"

end Floating
end BinaryLambda
