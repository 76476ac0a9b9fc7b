import BinaryLambda.Text.Unassigned

/-!
Quoted text.

A text is put between single quotes, or between double quotes if it holds a
single quote and no double one. The quote in use and the backslash are escaped
by a backslash, newline, tab and carriage return by their letters, and every
other unprintable character by the hexadecimal digits of its code point.

Unprintable are the control and format characters, the separators other than
the space, the characters of private use, and the code points without a
character, as in Unicode 14.
-/

namespace BinaryLambda
namespace Text

def InRanges (codePoint : Nat) (ranges : List (Nat × Nat)) : Prop :=
  ∃ range ∈ ranges, range.1 ≤ codePoint ∧ codePoint ≤ range.2

instance (codePoint : Nat) (ranges : List (Nat × Nat)) : Decidable (InRanges codePoint ranges) :=
  inferInstanceAs (Decidable (∃ range ∈ ranges, _ ∧ _))

/-- Control and format characters, separators but for the space, and private use. -/
def invisibleRanges : List (Nat × Nat) :=
  [(0x0, 0x1f), (0x7f, 0xa0), (0xad, 0xad), (0x600, 0x605), (0x61c, 0x61c), (0x6dd, 0x6dd),
    (0x70f, 0x70f), (0x890, 0x891), (0x8e2, 0x8e2), (0x1680, 0x1680), (0x180e, 0x180e),
    (0x2000, 0x200f), (0x2028, 0x202f), (0x205f, 0x2064), (0x2066, 0x206f), (0x3000, 0x3000),
    (0xe000, 0xf8ff), (0xfeff, 0xfeff), (0xfff9, 0xfffb), (0x110bd, 0x110bd), (0x110cd, 0x110cd),
    (0x13430, 0x13438), (0x1bca0, 0x1bca3), (0x1d173, 0x1d17a), (0xe0001, 0xe0001),
    (0xe0020, 0xe007f), (0xf0000, 0xffffd), (0x100000, 0x10fffd)]

def IsPrintable (character : Char) : Prop :=
  ¬ InRanges character.toNat invisibleRanges ∧ ¬ InRanges character.toNat unassignedRanges

instance (character : Char) : Decidable (IsPrintable character) :=
  inferInstanceAs (Decidable (_ ∧ _))

example : IsPrintable ' ' ∧ ¬ IsPrintable '\n' := by decide +kernel

def singleQuote : Char := '\x27'

def doubleQuote : Char := '\x22'

def backslash : Char := '\x5c'

def quoteFor (text : List Char) : Char :=
  if singleQuote ∈ text ∧ doubleQuote ∉ text then doubleQuote else singleQuote

/-- A number in `width` hexadecimal digits, or in more if it needs them. -/
def hexDigits (width number : Nat) : List Char :=
  let digits := Nat.toDigits 16 number
  List.replicate (width - digits.length) '0' ++ digits

/-- The shortest of the three hexadecimal escapes that holds a code point. -/
def hexEscape (codePoint : Nat) : List Char :=
  if codePoint < 0x100 then backslash :: 'x' :: hexDigits 2 codePoint
  else if codePoint < 0x10000 then backslash :: 'u' :: hexDigits 4 codePoint
  else backslash :: 'U' :: hexDigits 8 codePoint

def escape (quote character : Char) : List Char :=
  if character = quote ∨ character = backslash then [backslash, character]
  else if character = '\n' then [backslash, 'n']
  else if character = '\t' then [backslash, 't']
  else if character = '\r' then [backslash, 'r']
  else if IsPrintable character then [character]
  else hexEscape character.toNat

def quoted (text : String) : String :=
  let characters := text.toList
  let quote := quoteFor characters
  String.ofList (quote :: (characters.flatMap (escape quote) ++ [quote]))

end Text
end BinaryLambda
