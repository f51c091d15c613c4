import Retarget.Json.Word

/-!
# Numbers

A number is read in up to three parts: whole digits, digits behind a point, and an exponent. Its
digits are gathered into a significand of 64 bits, and `absorb` stops at the first digit that would
not fit any more. Whole digits from there on only count as a power of ten; digits behind the point
from there on are dropped.
-/

namespace Retarget.Json

/-- The decimal digits. -/
def isDigit (c : Char) : Bool :=
  '0' ≤ c && c ≤ '9'

/-- The value of a decimal digit. -/
def digitValue (c : Char) : Nat :=
  c.toNat - '0'.toNat

/-- The digits at the beginning of a text. -/
def digits (s : List Char) : List Char :=
  s.takeWhile isDigit

/-- The text behind the digits at its beginning. -/
def behindDigits (s : List Char) : List Char :=
  s.dropWhile isDigit

/-- The largest significand. -/
def maxSignificand : Nat := 0xFFFFFFFFFFFFFFFF

/-- The largest exponent that is still read as a number. -/
def maxExponent : Nat := 0x7FFFFFFF

/-- Gathers digits into a number while it does not pass the limit, and gives the digits that are
left over. -/
def absorb (limit : Nat) : Nat → List Char → Nat × List Char
  | value, [] => (value, [])
  | value, c :: cs =>
    if value * 10 + digitValue c ≤ limit then absorb limit (value * 10 + digitValue c) cs
    else (value, c :: cs)

/-- The number that a sign, a significand and a power of ten stand for. -/
def scaled (negative : Bool) (significand : Nat) (power : Int) (rest : List Char) : Reading (Numeral × List Char) :=
  match Decimal.ofParts? significand power with
  | some size => .ok (.double negative size, rest)
  | none => .error (.behind .tooLarge rest)

/-- Reads the digits of an exponent, of which there is at least one. If they pass the largest
exponent, the number is zero, or else too large at that very digit. -/
def exponentDigits (negative : Bool) (significand : Nat) (power : Int) (down : Bool)
    (s : List Char) : Reading (Numeral × List Char) :=
  match absorb maxExponent 0 (digits s) with
  | (value, []) =>
    scaled negative significand (if down then power - value else power + value) (behindDigits s)
  | (_, _ :: left) =>
    if significand ≠ 0 ∧ ¬down then .error (.behind .tooLarge (left ++ behindDigits s))
    else .ok (.double negative .zero, behindDigits s)

/-- Reads an exponent behind its letter and sign. -/
def exponentBody (negative : Bool) (significand : Nat) (power : Int) (down : Bool) :
    List Char → Reading (Numeral × List Char)
  | [] => .error (.behind .endInValue [])
  | c :: cs =>
    if isDigit c then exponentDigits negative significand power down (c :: cs)
    else .error (.next .badNumber (c :: cs))

/-- Reads an exponent behind its letter. -/
def exponentTail (negative : Bool) (significand : Nat) (power : Int) :
    List Char → Reading (Numeral × List Char)
  | '+' :: cs => exponentBody negative significand power false cs
  | '-' :: cs => exponentBody negative significand power true cs
  | s => exponentBody negative significand power false s

/-- Reads an exponent, if one stands next. -/
def optionalExponent (negative : Bool) (significand : Nat) (power : Int) :
    List Char → Reading (Numeral × List Char)
  | 'e' :: cs => exponentTail negative significand power cs
  | 'E' :: cs => exponentTail negative significand power cs
  | s => scaled negative significand power s

/-- Reads what follows the point. -/
def fractionTail (negative : Bool) (significand : Nat) (power : Int) (s : List Char) :
    Reading (Numeral × List Char) :=
  match digits s, s with
  | [], [] => .error (.next .endInValue [])
  | [], rest => .error (.next .badNumber rest)
  | found, _ =>
    let (value, left) := absorb maxSignificand significand found
    optionalExponent negative value (power - (found.length - left.length)) (behindDigits s)

/-- The largest whole number that a minus sign can stand before. -/
def maxNegated : Nat := 0x8000000000000000

/-- A whole number, if it has 64 bits; zero with a sign is a double. -/
def wholeNumber (negative : Bool) (significand : Nat) (rest : List Char) : Reading (Numeral × List Char) :=
  if negative then
    if 0 < significand ∧ significand ≤ maxNegated then .ok (.whole (-significand), rest)
    else scaled true significand 0 rest
  else .ok (.whole significand, rest)

/-- Reads what follows the whole digits, of which the given number did not fit. -/
def numberTail (negative : Bool) (significand dropped : Nat) : List Char → Reading (Numeral × List Char)
  | '.' :: cs => fractionTail negative significand dropped cs
  | 'e' :: cs => exponentTail negative significand dropped cs
  | 'E' :: cs => exponentTail negative significand dropped cs
  | s =>
    if dropped = 0 then wholeNumber negative significand s
    else scaled negative significand dropped s

/-- Reads a number behind its sign. No digit follows a leading zero. -/
def number (negative : Bool) : List Char → Reading (Numeral × List Char)
  | [] => .error (.behind .endInValue [])
  | c :: cs =>
    if c = '0' then
      match digits cs with
      | [] => numberTail negative 0 0 cs
      | _ => .error (.next .badNumber cs)
    else if isDigit c then
      let (value, left) := absorb maxSignificand 0 (digits (c :: cs))
      numberTail negative value left.length (behindDigits (c :: cs))
    else .error (.next .badNumber (c :: cs))

end Retarget.Json
