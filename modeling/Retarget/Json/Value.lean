import Retarget.Json.Literal
import Retarget.Json.Number

/-!
# Values where something is wanted

Every reader here skips the blanks before its token and looks at one character to decide. A value
of another kind than the wanted one is read as far as its kind allows, and then reported by
`mismatch`; an error inside it comes first.
-/

namespace Retarget.Json

/-- The value at the beginning of a text, as far as it is read to be named in a message. Nothing is
read of a list or an object. -/
def found : List Char → Reading (Found × List Char)
  | [] => .error (.next .endInValue [])
  | c :: cs =>
    if c = 'n' then do
      return (.null, ← word nullTail cs)
    else if c = 't' then do
      return (.boolean true, ← word trueTail cs)
    else if c = 'f' then do
      return (.boolean false, ← word falseTail cs)
    else if c = '"' then do
      let (value, rest) ← literalTail cs
      return (.text value, rest)
    else if c = '-' then do
      let (value, rest) ← number true cs
      return (.number value, rest)
    else if isDigit c then do
      let (value, rest) ← number false (c :: cs)
      return (.number value, rest)
    else if c = '[' then return (.list, c :: cs)
    else if c = '\x7b' then return (.object, c :: cs)
    else .error (.next .noValue (c :: cs))

/-- The fault of a value that is not what was wanted. -/
def mismatch (wanted : Wanted) (s : List Char) : Fault :=
  match found s with
  | .error fault => fault
  | .ok (value, rest) => .behind (.mismatch value wanted) rest

/-- Reads a string literal where one is wanted. -/
def text (wanted : Wanted) (s : List Char) : Reading (String × List Char) :=
  match skip s with
  | '"' :: cs => literalTail cs
  | rest => .error (mismatch wanted rest)

/-- Reads the word `null` where it is wanted. -/
def unit (s : List Char) : Reading (List Char) :=
  match skip s with
  | 'n' :: cs => word nullTail cs
  | rest => .error (mismatch .unit rest)

/-- Reads `null` as `none`, and anything else as the given reader does. -/
def orNull {α : Type} (read : List Char → Reading (α × List Char)) (s : List Char) :
    Reading (Option α × List Char) :=
  match skip s with
  | 'n' :: cs => do
    return (none, ← word nullTail cs)
  | rest => do
    let (value, rest) ← read rest
    return (some value, rest)

/-! ## Members of an object -/

/-- Reads the colon between a key and its value. -/
def colon (s : List Char) : Reading (List Char) :=
  match skip s with
  | ':' :: cs => .ok cs
  | [] => .error (.next .endInObject [])
  | rest => .error (.next .noColon rest)

/-- Reads the literal of a key. -/
def keyLiteral : List Char → Reading (Option String × List Char)
  | '"' :: cs => do
    let (key, rest) ← literalTail cs
    return (some key, rest)
  | rest => .error (.next .keyNotText rest)

/-- Reads up to and including the next key of an object, or `none` for its closing brace. A comma
stands before every key but the first. -/
def key (first : Bool) (s : List Char) : Reading (Option String × List Char) :=
  match skip s with
  | [] => .error (.next .endInObject [])
  | '\x7d' :: cs => .ok (none, cs)
  | c :: cs =>
    if first then keyLiteral (c :: cs)
    else if c = ',' then
      match skip cs with
      | [] => .error (.next .endInValue [])
      | '\x7d' :: ds => .error (.next .trailingComma ('\x7d' :: ds))
      | rest => keyLiteral rest
    else .error (.next .noCommaInObject (c :: cs))

/-! ## Every value takes something -/

theorem length_text_lt {wanted : Wanted} {s rest : List Char} {t : String}
    (h : text wanted s = .ok (t, rest)) : rest.length < s.length := by
  unfold text at h
  have hle := length_skip_le s
  split at h
  · rename_i hs
    have hlt := length_literalTail_lt h
    rw [hs, List.length_cons] at hle
    omega
  · simp at h

theorem length_unit_le {s rest : List Char} (h : unit s = .ok rest) :
    rest.length ≤ s.length := by
  unfold unit at h
  have hle := length_skip_le s
  split at h
  · rename_i hs
    rw [hs, List.length_cons] at hle
    exact Nat.le_of_lt (Nat.lt_of_le_of_lt (length_word_le h) hle)
  · simp at h

theorem length_orNull_le {α : Type} {read : List Char → Reading (α × List Char)}
    (hread : ∀ {s rest : List Char} {a : α}, read s = .ok (a, rest) → rest.length ≤ s.length)
    {s rest : List Char} {a : Option α} (h : orNull read s = .ok (a, rest)) :
    rest.length ≤ s.length := by
  unfold orNull at h
  have hle := length_skip_le s
  split at h
  · rename_i hs
    rw [hs, List.length_cons] at hle
    obtain ⟨last, hword, h⟩ := bind_eq_ok_iff.1 h
    cases h
    have := length_word_le hword
    omega
  · obtain ⟨⟨value, last⟩, hvalue, h⟩ := bind_eq_ok_iff.1 h
    cases h
    exact Nat.le_trans (hread hvalue) hle

theorem length_colon_lt {s rest : List Char} (h : colon s = .ok rest) :
    rest.length < s.length := by
  unfold colon at h
  have hle := length_skip_le s
  split at h
  · rename_i hs
    rw [hs, List.length_cons] at hle
    cases h
    omega
  · simp at h
  · simp at h

theorem length_keyLiteral_lt {s rest : List Char} {k : Option String}
    (h : keyLiteral s = .ok (k, rest)) : rest.length < s.length := by
  unfold keyLiteral at h
  split at h
  · obtain ⟨⟨name, last⟩, hlit, h⟩ := bind_eq_ok_iff.1 h
    cases h
    exact Nat.lt_succ_of_lt (length_literalTail_lt hlit)
  · simp at h

theorem length_key_lt {first : Bool} {s rest : List Char} {k : Option String}
    (h : key first s = .ok (k, rest)) : rest.length < s.length := by
  unfold key at h
  have hle := length_skip_le s
  split at h
  · simp at h
  · rename_i hs
    rw [hs, List.length_cons] at hle
    cases h
    omega
  · rename_i c cs _ hs
    rw [hs] at hle
    split at h
    · exact Nat.lt_of_lt_of_le (length_keyLiteral_lt h) hle
    · rw [List.length_cons] at hle
      split at h
      · have hle' := length_skip_le cs
        split at h
        · simp at h
        · simp at h
        · have hlt := length_keyLiteral_lt h
          omega
      · simp at h

end Retarget.Json
