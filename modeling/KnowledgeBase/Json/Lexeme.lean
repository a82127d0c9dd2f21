import KnowledgeBase.Binary64.Reading
import KnowledgeBase.Json.Basic
import KnowledgeBase.Text.Hex

/-!
The words of written values: blanks, numbers and texts. Each reader takes the characters
that are left and gives what it read together with the rest, or nothing if no such word
stands there.

A number or a text can be well formed and still denote no value, when the number is out of
every double's range or the text has half of a surrogate pair. Whether that matters depends
on whether anyone asks for the value.
-/

namespace KnowledgeBase.Json

def isBlank (c : Char) : Bool := c == ' ' || c == '\n' || c == '\t' || c == '\r'

def skipBlank (chars : List Char) : List Char := chars.dropWhile isBlank

/-- The parts of a written number. -/
structure Numeral where
  negative : Bool
  whole : List Char
  fraction : List Char
  exponent : Option Int
deriving DecidableEq

namespace Numeral

/-- A numeral without fraction and exponent is an integer if it fits a 64-bit word, which has
at most twenty digits. The word is signed for a negative numeral; a negative zero does not
fit. -/
def integer? (numeral : Numeral) : Option Int :=
  if !numeral.fraction.isEmpty || numeral.exponent.isSome || 20 < numeral.whole.length then none
  else
    let size := Nat.ofDigitChars 10 numeral.whole 0
    if numeral.negative then
      if 0 < size ∧ size ≤ Int64.minValue.toInt.natAbs then some (-size) else none
    else
      if size < UInt64.size then some size else none

/-- Takes digits into a significand as long as it fits a 64-bit word. Gives the significand and
how many digits are left over. -/
def takeDigits (significand : Nat) : List Char → Nat × Nat
  | [] => (significand, 0)
  | digit :: rest =>
      let next := 10 * significand + (digit.toNat - '0'.toNat)
      if next < UInt64.size then takeDigits next rest else (significand, rest.length + 1)

/-- The significand and the power of ten of a numeral. Digits that are left over count as zeros
in the whole part and as nothing in the fraction. -/
def decimal (numeral : Numeral) : Nat × Int :=
  let (significand, zeros) := takeDigits 0 numeral.whole
  let (significand, unused) := takeDigits significand numeral.fraction
  (significand, numeral.exponent.getD 0 + zeros - (numeral.fraction.length - unused : Nat))

/-- The value of a numeral; those that are no integers are doubles. -/
def value? (numeral : Numeral) : Option Json :=
  match numeral.integer? with
  | some n => some (.int n)
  | none =>
      let (significand, exponent) := numeral.decimal
      (Binary64.ofDecimal? numeral.negative significand exponent).map Json.float

/-- The sign in front of a number, true for a minus, and what follows it. -/
def sign (chars : List Char) : Bool × List Char :=
  match chars with
  | '-' :: rest => (true, rest)
  | rest => (false, rest)

/-- One digit or more. -/
def digits? (chars : List Char) : Option (List Char × List Char) :=
  match chars.span Char.isDigit with
  | ([], _) => none
  | found => some found

/-- The digits before the point. A leading zero stands alone. -/
def whole? (chars : List Char) : Option (List Char × List Char) :=
  match digits? chars with
  | some ('0' :: _ :: _, _) => none
  | found => found

/-- The digits after the point; none if there is no point. -/
def fraction? (chars : List Char) : Option (List Char × List Char) :=
  match chars with
  | '.' :: rest => digits? rest
  | rest => some ([], rest)

/-- The sign in front of an exponent, which may be a plus. -/
def exponentSign (chars : List Char) : Bool × List Char :=
  match chars with
  | '+' :: rest => (false, rest)
  | rest => sign rest

def exponent? (chars : List Char) : Option (Int × List Char) := do
  let (negative, rest) := exponentSign chars
  let (digits, rest) ← digits? rest
  let size : Int := Nat.ofDigitChars 10 digits 0
  return (if negative then -size else size, rest)

/-- The exponent, if there is a mark for one. -/
def power? (chars : List Char) : Option (Option Int × List Char) :=
  match chars with
  | 'e' :: rest | 'E' :: rest => do
      let (exponent, rest) ← exponent? rest
      return (some exponent, rest)
  | rest => some (none, rest)

/-- Reads a numeral: a sign, digits, a fraction and an exponent. -/
def read? (chars : List Char) : Option (Numeral × List Char) := do
  let (negative, rest) := sign chars
  let (whole, rest) ← whole? rest
  let (fraction, rest) ← fraction? rest
  let (exponent, rest) ← power? rest
  return (⟨negative, whole, fraction, exponent⟩, rest)

end Numeral

/-- A piece of a written text: a character, or a 16-bit unit from an escape. -/
inductive Piece where
  | char (c : Char)
  | unit (n : Nat)

/-- The unit written by four hexadecimal digits. -/
def hexUnit? (a b c d : Char) : Option Nat := do
  let high := (← Text.hexDigit? a) * 16 + (← Text.hexDigit? b)
  let low := (← Text.hexDigit? c) * 16 + (← Text.hexDigit? d)
  return high * 256 + low

def shortEscape? : Char → Option Char
  | '"' => some '"'
  | '\\' => some '\\'
  | '/' => some '/'
  | 'b' => some '\x08'
  | 'f' => some '\x0c'
  | 'n' => some '\n'
  | 'r' => some '\r'
  | 't' => some '\t'
  | _ => none

/-- Reads pieces up to the closing quote. Control characters must be escaped. -/
def pieces? (read : List Piece) : List Char → Option (List Piece × List Char)
  | [] => none
  | '"' :: rest => some (read.reverse, rest)
  | '\\' :: 'u' :: a :: b :: c :: d :: rest =>
      match hexUnit? a b c d with
      | none => none
      | some n => pieces? (.unit n :: read) rest
  | '\\' :: c :: rest =>
      match shortEscape? c with
      | none => none
      | some c => pieces? (.char c :: read) rest
  | c :: rest => if c.toNat < 32 || c == '\\' then none else pieces? (.char c :: read) rest

/-- Joins surrogate pairs; half a pair has no character. -/
def joinPieces? (read : List Char) : List Piece → Option (List Char)
  | [] => some read.reverse
  | .char c :: rest => joinPieces? (c :: read) rest
  | .unit n :: rest =>
      if 0xd800 ≤ n && n < 0xdc00 then
        match rest with
        | .unit m :: rest =>
            if 0xdc00 ≤ m && m < 0xe000 then
              joinPieces? (Char.ofNat (0x10000 + (n - 0xd800) * 0x400 + (m - 0xdc00)) :: read) rest
            else
              none
        | _ => none
      else if 0xdc00 ≤ n && n < 0xe000 then
        none
      else
        joinPieces? (Char.ofNat n :: read) rest

/-- Reads a text after its opening quote; the value is missing if it has half a pair. -/
def readText? (chars : List Char) : Option (Option String × List Char) := do
  let (pieces, rest) ← pieces? [] chars
  return ((joinPieces? [] pieces).map String.ofList, rest)

/-- Removes `word` from the front. -/
def afterWord? : List Char → List Char → Option (List Char)
  | [], chars => some chars
  | _ :: _, [] => none
  | w :: word, c :: chars => if w = c then afterWord? word chars else none

end KnowledgeBase.Json
