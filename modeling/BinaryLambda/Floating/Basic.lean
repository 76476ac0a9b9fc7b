/-!
Floating-point numbers: binary numbers of 53 digits, the two infinities, and
what is no number.

A finite one is kept as the rational number that it equals. Arithmetic is exact
and then rounded to the nearest floating-point number; of two that are equally
near the even one is taken.
-/

namespace BinaryLambda

instance Floating.hashableRat : Hashable Rat :=
  ⟨fun value => mixHash (hash value.num) (hash value.den)⟩

inductive Floating where
  | finite (value : Rat)
  | infinite (negative : Bool)
  /-- No number. It equals itself alone, and its origin tells it from others. -/
  | undefined (origin : List Int)
  deriving DecidableEq, Repr, Inhabited, Hashable

namespace Floating

/-- The nearest integer, and of two the even one. -/
def nearestInt (value : Rat) : Int :=
  let below := value.floor
  let twice := 2 * (value - below)
  if twice < 1 ∨ (twice = 1 ∧ below % 2 = 0) then below else below + 1

@[simp] theorem nearestInt_intCast (value : Int) : nearestInt value = value := by
  have below : (0 : Rat) < 1 := by decide
  simp only [nearestInt, Rat.floor_intCast, Rat.sub_self, Rat.mul_zero]
  exact if_pos (Or.inl below)

theorem nearestInt_near (value : Rat) :
    2 * value - 1 ≤ 2 * nearestInt value ∧ 2 * nearestInt value ≤ 2 * value + 1 := by
  have floorLe := Rat.floor_le value
  have ltFloor : value - 1 < value.floor := Rat.lt_floor
  simp only [nearestInt]
  split
  · grind
  · rw [Rat.intCast_add]
    grind

/-- The exponent of the largest power of the base up to a positive number. -/
def logarithm (base : Nat) (value : Rat) : Int :=
  let width (number : Nat) : Int := (Nat.toDigits base number).length
  let guess := width value.num.toNat - width value.den
  if value < (base : Rat) ^ guess then guess - 1 else guess

def precision : Int := 53

def leastExponent : Int := -1074

/-- What the last digit of the floating-point numbers about a positive number
counts. -/
def unit (value : Rat) : Rat :=
  2 ^ max (logarithm 2 value + 1 - precision) leastExponent

def round (value : Rat) : Rat :=
  if value = 0 then 0
  else
    let unit := unit (if value < 0 then -value else value)
    nearestInt (value / unit) * unit

@[simp] theorem round_zero : round 0 = 0 := by
  simp [round]

def integer? : Floating → Option Int
  | finite value => if value.den = 1 then some value.num else none
  | infinite _ | undefined _ => none

@[simp] theorem integer?_finite_intCast (value : Int) :
    (finite value).integer? = some value := by
  simp [integer?]

def AtLeast (least : Int) : Floating → Prop
  | finite value => least ≤ value
  | infinite negative => negative = false
  | undefined _ => False

instance (least : Int) : (number : Floating) → Decidable (number.AtLeast least)
  | finite value => inferInstanceAs (Decidable (least ≤ value))
  | infinite negative => inferInstanceAs (Decidable (negative = false))
  | undefined _ => inferInstanceAs (Decidable False)

/-- The number one higher. One higher than what is no number is another of them,
told from the first by a mark. -/
def successor (mark : Int) : Floating → Floating
  | finite value => finite (round (value + 1))
  | infinite negative => infinite negative
  | undefined origin => undefined (origin ++ [mark])

end Floating
end BinaryLambda
