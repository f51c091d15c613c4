import Retarget.Json.Word

/-!
# String literals

A string literal is read piece by piece behind its opening quote: a piece is the closing quote, a
plain character, or an escape. `literalTail` reads pieces up to the closing quote; every piece takes
at least one character, which is why it ends (`length_piece_lt`).
-/

namespace Retarget.Json

/-! ## Escapes -/

/-- The character of a short escape. -/
def shortEscape? (c : Char) : Option Char :=
  if c = '"' then some '"'
  else if c = '\\' then some '\\'
  else if c = '/' then some '/'
  else if c = 'b' then some '\x08'
  else if c = 'f' then some '\x0c'
  else if c = 'n' then some '\n'
  else if c = 'r' then some '\r'
  else if c = 't' then some '\t'
  else none

/-- The value of a hexadecimal digit. -/
def hexValue? (c : Char) : Option Nat :=
  if '0' ≤ c ∧ c ≤ '9' then some (c.toNat - '0'.toNat)
  else if 'a' ≤ c ∧ c ≤ 'f' then some (c.toNat - 'a'.toNat + 10)
  else if 'A' ≤ c ∧ c ≤ 'F' then some (c.toNat - 'A'.toNat + 10)
  else none

/-- The value of four hexadecimal digits. -/
def hexUnit? (a b c d : Char) : Option Nat := do
  return (((← hexValue? a) * 16 + (← hexValue? b)) * 16 + (← hexValue? c)) * 16 + (← hexValue? d)

/-- Reads four hexadecimal digits. A text of fewer than four bytes ends too early; otherwise four
bytes are taken before their value is looked at. -/
def hexUnit (s : List Char) : Reading (Nat × List Char) :=
  if Text.byteSize (s.take 4) < 4 then .error (.behind .endInText [])
  else
    match s with
    | a :: b :: c :: d :: rest =>
      match hexUnit? a b c d with
      | some unit => .ok (unit, rest)
      | none => .error ⟨.badEscape, s, 4⟩
    | _ => .error ⟨.badEscape, s, 4⟩

/-- Units that open a surrogate pair. -/
def isHigh (unit : Nat) : Bool :=
  0xD800 ≤ unit && unit ≤ 0xDBFF

/-- Units that close a surrogate pair. -/
def isLow (unit : Nat) : Bool :=
  0xDC00 ≤ unit && unit ≤ 0xDFFF

/-- The character of a surrogate pair. -/
def pairChar (high low : Nat) : Char :=
  Char.ofNat ((high - 0xD800) * 0x400 + (low - 0xDC00) + 0x10000)

/-- Reads one given character inside a pair of escapes. -/
def expectInPair (wanted : Char) : List Char → Reading (List Char)
  | [] => .error (.behind .endInText [])
  | c :: cs => if c = wanted then .ok cs else .error (.next .halfPair (c :: cs))

/-- Reads the second half of a surrogate pair, which is an escape of its own. -/
def pairTail (high : Nat) (s : List Char) : Reading (Char × List Char) := do
  let s ← expectInPair '\\' s
  let s ← expectInPair 'u' s
  let (low, rest) ← hexUnit s
  if isLow low then .ok (pairChar high low, rest) else .error (.behind .loneSurrogate rest)

/-- Reads what follows `\u`. -/
def unicodeTail (s : List Char) : Reading (Char × List Char) := do
  let (unit, rest) ← hexUnit s
  if isLow unit then .error (.behind .loneSurrogate rest)
  else if isHigh unit then pairTail unit rest
  else .ok (Char.ofNat unit, rest)

/-- Reads what follows a backslash. -/
def escapeTail : List Char → Reading (Char × List Char)
  | [] => .error (.behind .endInText [])
  | c :: cs =>
    match shortEscape? c with
    | some plain => .ok (plain, cs)
    | none => if c = 'u' then unicodeTail cs else .error (.next .badEscape (c :: cs))

/-! ## Pieces -/

/-- Reads one piece of a literal: a character, or `none` for the closing quote. -/
def piece : List Char → Reading (Option Char × List Char)
  | [] => .error (.behind .endInText [])
  | c :: cs =>
    if c = '"' then .ok (none, cs)
    else if c = '\\' then do
      let (plain, rest) ← escapeTail cs
      .ok (some plain, rest)
    else if c.toNat < 0x20 then .error (.behind .control cs)
    else .ok (some c, cs)

theorem length_hexUnit_lt {s rest : List Char} {unit : Nat} (h : hexUnit s = .ok (unit, rest)) :
    rest.length < s.length := by
  unfold hexUnit at h
  split at h
  · simp at h
  · split at h
    · split at h
      · simp only [Except.ok.injEq, Prod.mk.injEq] at h
        simp only [← h.2, List.length_cons]
        omega
      · simp at h
    · simp at h

theorem length_expectInPair_lt {wanted : Char} {s rest : List Char}
    (h : expectInPair wanted s = .ok rest) : rest.length < s.length := by
  unfold expectInPair at h
  split at h
  · simp at h
  · split at h
    · simp only [Except.ok.injEq] at h
      simp [h]
    · simp at h

theorem length_pairTail_lt {high : Nat} {s rest : List Char} {c : Char}
    (h : pairTail high s = .ok (c, rest)) : rest.length < s.length := by
  obtain ⟨s₁, h₁, h⟩ := bind_eq_ok_iff.1 h
  obtain ⟨s₂, h₂, h⟩ := bind_eq_ok_iff.1 h
  obtain ⟨⟨low, s₃⟩, h₃, h⟩ := bind_eq_ok_iff.1 h
  have l₁ := length_expectInPair_lt h₁
  have l₂ := length_expectInPair_lt h₂
  have l₃ := length_hexUnit_lt h₃
  dsimp only at h
  split at h
  · simp only [Except.ok.injEq, Prod.mk.injEq] at h
    rw [← h.2]
    omega
  · simp at h

theorem length_unicodeTail_lt {s rest : List Char} {c : Char}
    (h : unicodeTail s = .ok (c, rest)) : rest.length < s.length := by
  obtain ⟨⟨unit, s₁⟩, h₁, h⟩ := bind_eq_ok_iff.1 h
  have l₁ := length_hexUnit_lt h₁
  dsimp only at h
  split at h
  · simp at h
  · split at h
    · exact Nat.lt_trans (length_pairTail_lt h) l₁
    · simp only [Except.ok.injEq, Prod.mk.injEq] at h
      exact h.2 ▸ l₁

theorem length_escapeTail_lt {s rest : List Char} {c : Char}
    (h : escapeTail s = .ok (c, rest)) : rest.length < s.length := by
  unfold escapeTail at h
  split at h
  · simp at h
  · split at h
    · simp only [Except.ok.injEq, Prod.mk.injEq] at h
      simp [← h.2]
    · split at h
      · exact Nat.lt_succ_of_lt (length_unicodeTail_lt h)
      · simp at h

theorem length_piece_lt {s rest : List Char} {c : Option Char}
    (h : piece s = .ok (c, rest)) : rest.length < s.length := by
  unfold piece at h
  split at h
  · simp at h
  · split at h
    · simp only [Except.ok.injEq, Prod.mk.injEq] at h
      simp [← h.2]
    · split at h
      · obtain ⟨⟨plain, s₁⟩, h₁, h⟩ := bind_eq_ok_iff.1 h
        simp only [Except.ok.injEq, Prod.mk.injEq] at h
        exact h.2 ▸ Nat.lt_succ_of_lt (length_escapeTail_lt h₁)
      · split at h
        · simp at h
        · simp only [Except.ok.injEq, Prod.mk.injEq] at h
          simp [← h.2]

/-! ## Literals -/

/-- Reads a literal behind its opening quote, up to and including the closing one. -/
def literalChars (s : List Char) : Reading (List Char × List Char) :=
  match _h : piece s with
  | .error fault => .error fault
  | .ok (none, rest) => .ok ([], rest)
  | .ok (some c, rest) => do
    let (cs, last) ← literalChars rest
    .ok (c :: cs, last)
termination_by s.length
decreasing_by exact length_piece_lt _h

/-- Reads a literal behind its opening quote as a text. -/
def literalTail (s : List Char) : Reading (String × List Char) := do
  let (cs, rest) ← literalChars s
  .ok (String.ofList cs, rest)

theorem length_literalChars_lt {s rest cs : List Char} (h : literalChars s = .ok (cs, rest)) :
    rest.length < s.length := by
  fun_induction literalChars s generalizing cs rest with
  | case1 => simp at h
  | case2 _ _ hp =>
    simp only [Except.ok.injEq, Prod.mk.injEq] at h
    exact h.2 ▸ length_piece_lt hp
  | case3 _ _ _ hp ih =>
    obtain ⟨⟨cs', last⟩, h₁, h⟩ := bind_eq_ok_iff.1 h
    simp only [Except.ok.injEq, Prod.mk.injEq] at h
    exact h.2 ▸ Nat.lt_trans (ih h₁) (length_piece_lt hp)

theorem length_literalTail_lt {s rest : List Char} {t : String}
    (h : literalTail s = .ok (t, rest)) : rest.length < s.length := by
  obtain ⟨⟨cs, last⟩, h₁, h⟩ := bind_eq_ok_iff.1 h
  simp only [Except.ok.injEq, Prod.mk.injEq] at h
  exact h.2 ▸ length_literalChars_lt h₁

end Retarget.Json
