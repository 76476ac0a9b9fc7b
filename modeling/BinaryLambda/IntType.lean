/-!
The integer types that a table of counts may use.

Counts are natural numbers; an unbounded table takes them all, and a
fixed-width one those between the ends of its type.
-/

namespace BinaryLambda

inductive Width where
  | w8
  | w16
  | w32
  | w64
  deriving DecidableEq, Repr

def Width.bits : Width → Nat
  | w8 => 8
  | w16 => 16
  | w32 => 32
  | w64 => 64

inductive IntType where
  | unbounded
  | signed (width : Width)
  | unsigned (width : Width)
  deriving DecidableEq, Repr, Inhabited

namespace IntType

def max? : IntType → Option Nat
  | unbounded => none
  | signed width => some (Nat.pow 2 (width.bits - 1) - 1)
  | unsigned width => some (Nat.pow 2 width.bits - 1)

def Fits (type : IntType) (value : Nat) : Prop := ∀ max ∈ type.max?, value ≤ max

instance (type : IntType) (value : Nat) : Decidable (type.Fits value) :=
  inferInstanceAs (Decidable (∀ max ∈ type.max?, value ≤ max))

@[simp] theorem fits_unbounded (value : Nat) : unbounded.Fits value := by
  simp [Fits, max?]

@[simp] theorem fits_zero (type : IntType) : type.Fits 0 := by
  simp [Fits]

theorem Fits.mono {type : IntType} {value larger : Nat} (fits : type.Fits larger)
    (le : value ≤ larger) : type.Fits value :=
  fun max bound => Nat.le_trans le (fits max bound)

def fixedWidth : List IntType :=
  [signed .w8, signed .w16, signed .w32, signed .w64,
    unsigned .w8, unsigned .w16, unsigned .w32, unsigned .w64]

def name? : IntType → Option String
  | unbounded => none
  | signed .w8 => some "Int8"
  | signed .w16 => some "Int16"
  | signed .w32 => some "Int32"
  | signed .w64 => some "Int64"
  | unsigned .w8 => some "UInt8"
  | unsigned .w16 => some "UInt16"
  | unsigned .w32 => some "UInt32"
  | unsigned .w64 => some "UInt64"

def ofName? (name : String) : Option IntType :=
  fixedWidth.find? fun type => type.name? = some name

theorem ofName?_eq_some_iff {name : String} {type : IntType} :
    ofName? name = some type ↔ type.name? = some name := by
  constructor
  · intro found
    simpa using List.find?_some found
  · intro named
    rcases type with _ | width | width <;> try cases width
    all_goals
      simp only [name?, Option.some.injEq, reduceCtorEq] at named
      try subst named
    all_goals simp [ofName?, fixedWidth, name?]

end IntType
end BinaryLambda
