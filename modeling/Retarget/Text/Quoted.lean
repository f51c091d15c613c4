import Retarget.Text.Escaped

/-!
# Quoted text

How a message shows a text that it found: between double quotes, with the usual short escapes for
the quote, the backslash and the common controls, and with the number in braces for every other
character that would not be seen.
-/

namespace Retarget.Text

/-- The letter of a short escape, for the characters that have one. -/
def shortEscape? (c : Char) : Option Char :=
  if c = '\x00' then some '0'
  else if c = '\t' then some 't'
  else if c = '\r' then some 'r'
  else if c = '\n' then some 'n'
  else if c = '"' then some '"'
  else if c = '\\' then some '\\'
  else none

/-- A code point in hexadecimal digits, without leading zeros. -/
def hexDigits (code : Nat) : List Char :=
  Nat.toDigits 16 code

/-- A character as it stands between the quotes. -/
def quoteChar (c : Char) : List Char :=
  match shortEscape? c with
  | some letter => ['\\', letter]
  | none =>
    if isEscaped c then ['\\', 'u', '\x7b'] ++ hexDigits c.toNat ++ ['\x7d'] else [c]

/-- A text between double quotes. -/
def quote (s : String) : String :=
  String.ofList ('"' :: (s.toList.flatMap quoteChar ++ ['"']))

end Retarget.Text
