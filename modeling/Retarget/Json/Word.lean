import Retarget.Json.Fault

/-!
# Spaces and words

The parts of a JSON text that carry no structure: the blanks between its tokens, and the words
`null`, `true` and `false`.
-/

namespace Retarget.Json

/-- The blanks that may stand between two tokens. -/
def isSpace (c : Char) : Bool :=
  c = ' ' || c = '\n' || c = '\t' || c = '\r'

/-- The text from the next token on. -/
def skip (s : List Char) : List Char :=
  s.dropWhile isSpace

/-- Reads the given letters. -/
def word : List Char → List Char → Reading (List Char)
  | [], s => .ok s
  | _ :: _, [] => .error (.behind .endInValue [])
  | letter :: letters, c :: cs =>
    if c = letter then word letters cs else .error (.next .badWord (c :: cs))

/-- The letters of `null` behind the first one. -/
def nullTail : List Char := ['u', 'l', 'l']

/-- The letters of `true` behind the first one. -/
def trueTail : List Char := ['r', 'u', 'e']

/-- The letters of `false` behind the first one. -/
def falseTail : List Char := ['a', 'l', 's', 'e']

/-- Requires that nothing but blanks is left. -/
def finish (s : List Char) : Reading Unit :=
  match skip s with
  | [] => .ok ()
  | rest => .error (.next .trailingCharacters rest)

theorem length_skip_le (s : List Char) : (skip s).length ≤ s.length :=
  (List.dropWhile_suffix _).length_le

theorem length_word_le {letters s rest : List Char} (h : word letters s = .ok rest) :
    rest.length ≤ s.length := by
  fun_induction word letters s with
  | case1 => simp_all
  | case2 => simp at h
  | case3 _ _ _ ih => exact Nat.le_succ_of_le (ih h)
  | case4 => simp at h

end Retarget.Json
