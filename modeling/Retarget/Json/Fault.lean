import Retarget.Decimal.Shortest
import Retarget.Text.Position
import Retarget.Text.Quoted

/-!
# What can be wrong with a JSON text

A `Fault` is a cause with the place where it was noticed. Reading goes from left to right, and the
first fault ends it. The place is kept as the text that was still to be read, so a reader needs no
counter; `Fault.position` counts it out against the whole text.
-/

namespace Retarget.Json

/-- A number as a JSON text gives it: whole numbers of 64 bits are kept as they are, all others are
doubles with a sign. -/
inductive Numeral where
  | whole (value : Int)
  | double (negative : Bool) (size : Decimal.Double)
deriving DecidableEq, Repr

/-- What stands where something else was wanted. -/
inductive Found where
  | null
  | boolean (value : Bool)
  | number (value : Numeral)
  | text (value : String)
  | list
  | object
deriving DecidableEq, Repr

/-- What was wanted at a place. -/
inductive Wanted where
  | text
  | map
  | options
  | unit
  | variant
deriving DecidableEq, Repr

/-- Why a text cannot be read. -/
inductive Cause where
  | endInValue
  | endInText
  | endInObject
  | endInList
  | badWord
  | noValue
  | noColon
  | noCommaInObject
  | noCommaInList
  | trailingComma
  | trailingCharacters
  | keyNotText
  | control
  | badEscape
  | loneSurrogate
  | halfPair
  | badNumber
  | tooLarge
  | mismatch (found : Found) (wanted : Wanted)
  | unknownField (key : String)
  | duplicateField (key : String)
  | unknownVariant (word : String)
  | wrongLength (count : Nat)
deriving DecidableEq, Repr

/-- How a message names what it found. -/
def Found.describe : Found → String
  | null => "null"
  | boolean value => "boolean `" ++ (if value then "true" else "false") ++ "`"
  | number (.whole value) => "integer `" ++ toString value ++ "`"
  | number (.double negative size) => "floating point `" ++ size.render negative ++ "`"
  | text value => "string " ++ Text.quote value
  | list => "sequence"
  | object => "map"

/-- How a message names what it wanted. -/
def Wanted.describe : Wanted → String
  | text => "a string"
  | map => "a map"
  | options => "struct PluginConfig"
  | unit => "unit"
  | variant => "variant identifier"

/-- The wording of a cause. -/
def Cause.message : Cause → String
  | endInValue => "EOF while parsing a value"
  | endInText => "EOF while parsing a string"
  | endInObject => "EOF while parsing an object"
  | endInList => "EOF while parsing a list"
  | badWord => "expected ident"
  | noValue => "expected value"
  | noColon => "expected `:`"
  | noCommaInObject => "expected `,` or `\x7d`"
  | noCommaInList => "expected `,` or `]`"
  | trailingComma => "trailing comma"
  | trailingCharacters => "trailing characters"
  | keyNotText => "key must be a string"
  | control => "control character (\\u0000-\\u001F) found while parsing a string"
  | badEscape => "invalid escape"
  | loneSurrogate => "lone leading surrogate in hex escape"
  | halfPair => "unexpected end of hex escape"
  | badNumber => "invalid number"
  | tooLarge => "number out of range"
  | mismatch found wanted => "invalid type: " ++ found.describe ++ ", expected " ++ wanted.describe
  | unknownField key =>
    "unknown field `" ++ key ++ "`, expected one of `moduleMap`, `modulePrefix`, `mode`"
  | duplicateField key => "duplicate field `" ++ key ++ "`"
  | unknownVariant word => "unknown variant `" ++ word ++ "`, expected `test` or `normal`"
  | wrongLength count =>
    "invalid length " ++ toString count ++ ", expected struct PluginConfig with 3 elements"

/-- A cause with the place where it was noticed: the text from there on, and the number of its bytes
that were looked at and count towards the place. -/
structure Fault where
  cause : Cause
  rest : List Char
  ahead : Nat
deriving DecidableEq, Repr

namespace Fault

/-- A fault behind everything that was read. -/
def behind (cause : Cause) (rest : List Char) : Fault :=
  ⟨cause, rest, 0⟩

/-- A fault at the next byte. -/
def next (cause : Cause) (rest : List Char) : Fault :=
  ⟨cause, rest, 1⟩

/-- Where the fault lies in the whole text; a place never lies behind the end. -/
def position (fault : Fault) (text : List Char) : Text.Position :=
  let total := Text.byteSize text
  .after (min total (total - Text.byteSize fault.rest + fault.ahead)) text

/-- The wording of a fault in a text. -/
def message (fault : Fault) (text : List Char) : String :=
  let pos := fault.position text
  fault.cause.message ++ " at line " ++ toString pos.line ++ " column " ++ toString pos.column

end Fault

/-- What a reader gives: a result or a fault. Most results are a value with the text behind it. -/
abbrev Reading (α : Type) : Type :=
  Except Fault α

/-- Two readers in a row succeed when both do. -/
theorem bind_eq_ok_iff {α β : Type} {first : Reading α} {second : α → Reading β} {b : β} :
    (first >>= second) = .ok b ↔ ∃ a, first = .ok a ∧ second a = .ok b := by
  cases first <;> simp [bind, Except.bind]

end Retarget.Json
