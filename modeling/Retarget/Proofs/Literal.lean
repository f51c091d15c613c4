import Retarget.Json.Literal

/-!
# The grammar of string literals

A string literal is a sequence of pieces between two quotes, and each piece stands for one
character: a plain character for itself, a short escape for a control or a delimiter, and an escape
by number for the character with that code, which takes two such escapes, a surrogate pair, beyond
the first 65536. The reader accepts exactly these texts, whatever follows the closing quote.

Results:
1. `hexUnit_eq_ok_iff`: the reader of a code takes exactly four hexadecimal digits.
2. `escapeTail_eq_ok_iff`, `piece_eq_ok_none_iff`, `piece_eq_ok_some_iff`: it takes exactly one
   piece, or the closing quote.
3. `literalTail_eq_ok_iff`: it takes exactly one literal.
-/

namespace Retarget.Json

/-! ## Definitions -/

/-- `HexDigit c n`: the character is the hexadecimal digit for a number, in either case. -/
def HexDigit (c : Char) (n : Nat) : Prop :=
  n < 16 ∧ (c = n.digitChar ∨ c = n.digitChar.toUpper)

instance (c : Char) (n : Nat) : Decidable (HexDigit c n) :=
  inferInstanceAs (Decidable (_ ∧ _))

/-- `HexCode t n`: the text is four hexadecimal digits for a number. -/
inductive HexCode : List Char → Nat → Prop
  | digits {a b c d : Char} {i j k l : Nat} :
      HexDigit a i → HexDigit b j → HexDigit c k → HexDigit d l →
      HexCode [a, b, c, d] (i * 4096 + j * 256 + k * 16 + l)

/-- The letters of the short escapes with the characters that they stand for. -/
def shortEscapes : List (Char × Char) :=
  [('"', '"'), ('\\', '\\'), ('/', '/'), ('b', '\x08'), ('f', '\x0c'), ('n', '\n'), ('r', '\r'),
    ('t', '\t')]

/-- `Coded t c`: the text, behind `\u`, gives a character by its code.

* `one`: four digits, which are no surrogate.
* `two`: a high and a low surrogate, the second of which is an escape of its own. -/
inductive Coded : List Char → Char → Prop
  | one {t : List Char} {c : Char} :
      HexCode t c.toNat → Coded t c
  | two {t u : List Char} {high low : Nat} {c : Char} :
      HexCode t high → 0xD800 ≤ high → high < 0xDC00 →
      HexCode u low → 0xDC00 ≤ low → low < 0xE000 →
      c.toNat = 0x10000 + (high - 0xD800) * 0x400 + (low - 0xDC00) →
      Coded (t ++ '\\' :: 'u' :: u) c

/-- `Piece t c`: the text stands for a character inside a literal. -/
inductive Piece : List Char → Char → Prop
  | plain {c : Char} : c ≠ '"' → c ≠ '\\' → 0x20 ≤ c.toNat → Piece [c] c
  | short {letter c : Char} : (letter, c) ∈ shortEscapes → Piece ['\\', letter] c
  | coded {t : List Char} {c : Char} : Coded t c → Piece ('\\' :: 'u' :: t) c

/-- `Pieces t cs`: the text is a sequence of pieces that stand for the characters. -/
inductive Pieces : List Char → List Char → Prop
  | nil : Pieces [] []
  | cons {t u cs : List Char} {c : Char} : Piece t c → Pieces u cs → Pieces (t ++ u) (c :: cs)

/-- `Literal t value`: the text is a string literal for the value. -/
inductive Literal : List Char → String → Prop
  | quoted {body : List Char} {value : String} :
      Pieces body value.toList → Literal ('"' :: (body ++ ['"'])) value

/-! ## 1. Codes -/

theorem toNat_le_of_le {c d : Char} (h : c ≤ d) : c.toNat ≤ d.toNat :=
  UInt32.le_iff_toNat_le.mp h

/-- Digits are ASCII characters, so that there are finitely many to look at. -/
theorem toNat_lt_of_hexValue? {c : Char} {n : Nat} (h : hexValue? c = some n) : c.toNat < 103 := by
  unfold hexValue? at h
  split at h
  · next hc => exact Nat.lt_of_le_of_lt (toNat_le_of_le hc.2) (by decide)
  · split at h
    · next hc => exact Nat.lt_of_le_of_lt (toNat_le_of_le hc.2) (by decide)
    · split at h
      · next hc => exact Nat.lt_of_le_of_lt (toNat_le_of_le hc.2) (by decide)
      · cases h

theorem hexValue?_eq_some_iff {c : Char} {n : Nat} : hexValue? c = some n ↔ HexDigit c n := by
  -- Both ways there is only a finite table to go through.
  have hsound : ∀ code < 103, ∀ n ∈ hexValue? (Char.ofNat code), HexDigit (Char.ofNat code) n := by
    decide
  have hcomplete : ∀ n < 16, hexValue? n.digitChar = some n ∧
      hexValue? n.digitChar.toUpper = some n := by
    decide
  constructor
  · intro h
    have hdigit := hsound c.toNat (toNat_lt_of_hexValue? h) n
    rw [Char.ofNat_toNat] at hdigit
    exact hdigit h
  · rintro ⟨hn, rfl | rfl⟩
    · exact (hcomplete n hn).1
    · exact (hcomplete n hn).2

theorem hexUnit?_eq_some_iff {a b c d : Char} {n : Nat} :
    hexUnit? a b c d = some n ↔ HexCode [a, b, c, d] n := by
  constructor
  · intro h
    obtain ⟨i, hi, h⟩ := Option.bind_eq_some_iff.mp h
    obtain ⟨j, hj, h⟩ := Option.bind_eq_some_iff.mp h
    obtain ⟨k, hk, h⟩ := Option.bind_eq_some_iff.mp h
    obtain ⟨l, hl, h⟩ := Option.bind_eq_some_iff.mp h
    have hn : n = i * 4096 + j * 256 + k * 16 + l := by
      have := Option.some.inj h
      omega
    rw [hn]
    exact .digits (hexValue?_eq_some_iff.mp hi) (hexValue?_eq_some_iff.mp hj)
      (hexValue?_eq_some_iff.mp hk) (hexValue?_eq_some_iff.mp hl)
  · rintro ⟨ha, hb, hc, hd⟩
    rw [hexUnit?, hexValue?_eq_some_iff.mpr ha, hexValue?_eq_some_iff.mpr hb,
      hexValue?_eq_some_iff.mpr hc, hexValue?_eq_some_iff.mpr hd]
    simp only [bind, Option.bind, pure, Option.some.injEq]
    omega

theorem HexCode.exists_cons {t : List Char} {n : Nat} (h : HexCode t n) :
    ∃ a b c d, t = [a, b, c, d] := by
  cases h with
  | digits => exact ⟨_, _, _, _, rfl⟩

theorem HexCode.lt {t : List Char} {n : Nat} (h : HexCode t n) : n < 0x10000 := by
  cases h with
  | digits ha hb hc hd =>
    have := ha.1
    have := hb.1
    have := hc.1
    have := hd.1
    omega

/-- Four characters take at least four bytes. -/
theorem four_le_byteSize (a b c d : Char) : ¬ Text.byteSize [a, b, c, d] < 4 := by
  have := a.utf8Size_pos
  have := b.utf8Size_pos
  have := c.utf8Size_pos
  have := d.utf8Size_pos
  simp only [Text.byteSize]
  omega

theorem hexUnit_eq_ok_iff {s rest : List Char} {n : Nat} :
    hexUnit s = .ok (n, rest) ↔ ∃ t, HexCode t n ∧ s = t ++ rest := by
  constructor
  · intro h
    unfold hexUnit at h
    split at h
    · cases h
    · split at h
      · next a b c d more _ =>
        split at h
        · next unit hunit =>
          cases h
          exact ⟨[a, b, c, d], hexUnit?_eq_some_iff.mp hunit, rfl⟩
        · cases h
      · cases h
  · rintro ⟨t, ht, rfl⟩
    obtain ⟨a, b, c, d, rfl⟩ := ht.exists_cons
    have hsize : ¬ Text.byteSize (([a, b, c, d] ++ rest).take 4) < 4 := four_le_byteSize a b c d
    unfold hexUnit
    rw [if_neg hsize]
    simp only [List.cons_append, List.nil_append, hexUnit?_eq_some_iff.mpr ht]

/-! ## 2. Pieces -/

theorem isLow_iff {unit : Nat} : isLow unit = true ↔ 0xDC00 ≤ unit ∧ unit < 0xE000 := by
  simp only [isLow, Bool.and_eq_true, decide_eq_true_eq]
  omega

theorem isHigh_iff {unit : Nat} : isHigh unit = true ↔ 0xD800 ≤ unit ∧ unit < 0xDC00 := by
  simp only [isHigh, Bool.and_eq_true, decide_eq_true_eq]
  omega

theorem expectInPair_eq_ok_iff {wanted : Char} {s rest : List Char} :
    expectInPair wanted s = .ok rest ↔ s = wanted :: rest := by
  unfold expectInPair
  split
  · exact iff_of_false (by simp) (by simp)
  · next c cs =>
    split
    · next hc =>
      subst hc
      simp only [Except.ok.injEq, List.cons.injEq, true_and]
    · next hc =>
      refine iff_of_false (by simp) ?_
      intro h
      exact hc (List.cons.inj h).1

/-- A number that is no surrogate is the code of its character. -/
theorem toNat_ofNat {n : Nat} (h : n < 0xD800 ∨ 0xE000 ≤ n ∧ n < 0x110000) :
    (Char.ofNat n).toNat = n := by
  have hvalid : n.isValidChar := by
    rcases h with h | h
    · exact .inl h
    · exact .inr ⟨Nat.lt_of_succ_le h.1, h.2⟩
  rw [Char.ofNat, dif_pos hvalid]
  rfl

theorem toNat_pairChar {high low : Nat} (hhigh : isHigh high = true) (hlow : isLow low = true) :
    (pairChar high low).toNat = 0x10000 + (high - 0xD800) * 0x400 + (low - 0xDC00) := by
  rw [isHigh_iff] at hhigh
  rw [isLow_iff] at hlow
  rw [pairChar, toNat_ofNat]
  · omega
  · omega

theorem pairTail_eq_ok_iff {high : Nat} {s rest : List Char} {c : Char}
    (hhigh : isHigh high = true) :
    pairTail high s = .ok (c, rest) ↔
      ∃ u low, HexCode u low ∧ isLow low = true ∧
        c.toNat = 0x10000 + (high - 0xD800) * 0x400 + (low - 0xDC00) ∧
        s = '\\' :: 'u' :: u ++ rest := by
  constructor
  · intro h
    obtain ⟨s₁, h₁, h⟩ := bind_eq_ok_iff.mp h
    obtain ⟨s₂, h₂, h⟩ := bind_eq_ok_iff.mp h
    obtain ⟨⟨low, s₃⟩, h₃, hend⟩ := bind_eq_ok_iff.mp h
    obtain ⟨u, hu, rfl⟩ := hexUnit_eq_ok_iff.mp h₃
    rw [expectInPair_eq_ok_iff] at h₁ h₂
    subst h₁ h₂
    dsimp only at hend
    split at hend
    · next hlow =>
      rw [Except.ok.injEq, Prod.mk.injEq] at hend
      obtain ⟨rfl, rfl⟩ := hend
      exact ⟨u, low, hu, hlow, toNat_pairChar hhigh hlow, rfl⟩
    · cases hend
  · rintro ⟨u, low, hu, hlow, hc, rfl⟩
    -- A character is given by its code, so it is enough to compare the numbers.
    have hchar : pairChar high low = c := by
      rw [← Char.toNat_inj, toNat_pairChar hhigh hlow, hc]
    refine bind_eq_ok_iff.mpr ⟨_, expectInPair_eq_ok_iff.mpr rfl, ?_⟩
    refine bind_eq_ok_iff.mpr ⟨_, expectInPair_eq_ok_iff.mpr rfl, ?_⟩
    refine bind_eq_ok_iff.mpr ⟨_, hexUnit_eq_ok_iff.mpr ⟨u, hu, rfl⟩, ?_⟩
    dsimp only
    rw [if_pos hlow, hchar]

theorem not_surrogate (c : Char) : isLow c.toNat = false ∧ isHigh c.toNat = false := by
  have hvalid : c.toNat < 0xD800 ∨ 0xDFFF < c.toNat ∧ c.toNat < 0x110000 := c.valid
  rw [← Bool.not_eq_true, ← Bool.not_eq_true, isLow_iff, isHigh_iff]
  omega

theorem unicodeTail_eq_ok_iff {s rest : List Char} {c : Char} :
    unicodeTail s = .ok (c, rest) ↔ ∃ t, Coded t c ∧ s = t ++ rest := by
  constructor
  · intro h
    obtain ⟨⟨unit, s₁⟩, h₁, hend⟩ := bind_eq_ok_iff.mp h
    obtain ⟨t, ht, rfl⟩ := hexUnit_eq_ok_iff.mp h₁
    dsimp only at hend
    split at hend
    · cases hend
    · next hlow =>
      split at hend
      · next hhigh =>
        obtain ⟨u, low, hu, hlow, hc, rfl⟩ := (pairTail_eq_ok_iff hhigh).mp hend
        rw [isHigh_iff] at hhigh
        rw [isLow_iff] at hlow
        refine ⟨_, .two ht hhigh.1 hhigh.2 hu hlow.1 hlow.2 hc, ?_⟩
        exact (List.append_assoc t ('\\' :: 'u' :: u) rest).symm
      · next hhigh =>
        -- The unit is neither half of a pair, and below the codes that need one.
        cases hend
        rw [isLow_iff] at hlow
        rw [isHigh_iff] at hhigh
        have hcode : (Char.ofNat unit).toNat = unit := by
          have := ht.lt
          exact toNat_ofNat (by omega)
        exact ⟨t, .one (hcode.symm ▸ ht), rfl⟩
  · rintro ⟨t, ht, rfl⟩
    cases ht with
    | one ht =>
      refine bind_eq_ok_iff.mpr ⟨_, hexUnit_eq_ok_iff.mpr ⟨t, ht, rfl⟩, ?_⟩
      dsimp only
      rw [(not_surrogate c).1, (not_surrogate c).2, Char.ofNat_toNat]
      rfl
    | @two t u high low _ ht hge hlt hu hge' hlt' hc =>
      have hhigh : isHigh high = true := isHigh_iff.mpr ⟨hge, hlt⟩
      have hlow : isLow high = false := by
        rw [← Bool.not_eq_true, isLow_iff]
        omega
      refine bind_eq_ok_iff.mpr
        ⟨_, hexUnit_eq_ok_iff.mpr ⟨t, ht, List.append_assoc t _ rest⟩, ?_⟩
      dsimp only
      rw [hlow, hhigh]
      exact (pairTail_eq_ok_iff hhigh).mpr ⟨u, low, hu, isLow_iff.mpr ⟨hge', hlt'⟩, hc, rfl⟩

theorem shortEscape?_eq_some_iff {letter c : Char} :
    shortEscape? letter = some c ↔ (letter, c) ∈ shortEscapes := by
  simp only [shortEscape?, shortEscapes, List.mem_cons, Prod.mk.injEq, List.not_mem_nil, or_false]
  grind

/-- The reader behind a backslash. -/
theorem escapeTail_eq_ok_iff {s rest : List Char} {c : Char} :
    escapeTail s = .ok (c, rest) ↔ ∃ t, Piece ('\\' :: t) c ∧ s = t ++ rest := by
  constructor
  · intro h
    unfold escapeTail at h
    split at h
    · cases h
    · next letter cs =>
      split at h
      · next hshort =>
        cases h
        exact ⟨[letter], .short (shortEscape?_eq_some_iff.mp hshort), rfl⟩
      · split at h
        · next hu =>
          subst hu
          obtain ⟨t, ht, rfl⟩ := unicodeTail_eq_ok_iff.mp h
          exact ⟨'u' :: t, .coded ht, rfl⟩
        · cases h
  · rintro ⟨t, ht, rfl⟩
    cases ht with
    | plain _ hback => exact absurd rfl hback
    | @short letter _ hmem =>
      show escapeTail (letter :: rest) = _
      rw [escapeTail, shortEscape?_eq_some_iff.mpr hmem]
    | coded ht => exact unicodeTail_eq_ok_iff.mpr ⟨_, ht, rfl⟩

theorem piece_eq_ok_none_iff {s rest : List Char} :
    piece s = .ok (none, rest) ↔ s = '"' :: rest := by
  constructor
  · intro h
    unfold piece at h
    split at h
    · cases h
    · split at h
      · next hquote =>
        cases h
        rw [hquote]
      · split at h
        · obtain ⟨_, _, hend⟩ := bind_eq_ok_iff.mp h
          cases hend
        · split at h
          · cases h
          · cases h
  · rintro rfl
    rfl

theorem piece_eq_ok_some_iff {s rest : List Char} {c : Char} :
    piece s = .ok (some c, rest) ↔ ∃ t, Piece t c ∧ s = t ++ rest := by
  constructor
  · intro h
    unfold piece at h
    split at h
    · cases h
    · split at h
      · cases h
      · next hquote =>
        split at h
        · next hback =>
          obtain ⟨⟨plain, last⟩, hescape, hend⟩ := bind_eq_ok_iff.mp h
          cases hend
          obtain ⟨t, ht, rfl⟩ := escapeTail_eq_ok_iff.mp hescape
          exact ⟨'\\' :: t, ht, by rw [hback]; rfl⟩
        · next hback =>
          split at h
          · cases h
          · next hcontrol =>
            cases h
            exact ⟨[c], .plain hquote hback (Nat.le_of_not_lt hcontrol), rfl⟩
  · rintro ⟨t, ht, rfl⟩
    have hescaped : ∀ {u : List Char}, Piece ('\\' :: u) c →
        piece ('\\' :: (u ++ rest)) = .ok (some c, rest) := by
      intro u hu
      exact bind_eq_ok_iff.mpr ⟨_, escapeTail_eq_ok_iff.mpr ⟨u, hu, rfl⟩, rfl⟩
    cases ht with
    | plain hquote hback hcontrol =>
      show piece (c :: rest) = _
      rw [piece, if_neg hquote, if_neg hback, if_neg (Nat.not_lt_of_le hcontrol)]
    | short hmem => exact hescaped (.short hmem)
    | coded ht => exact hescaped (.coded ht)

/-! ## 3. Literals -/

theorem literalChars_of_none {s rest : List Char} (h : piece s = .ok (none, rest)) :
    literalChars s = .ok ([], rest) := by
  unfold literalChars
  split
  · next hfault => cases h.symm.trans hfault
  · next hnone =>
    cases h.symm.trans hnone
    rfl
  · next hsome => cases h.symm.trans hsome

theorem literalChars_of_some {s rest last cs : List Char} {c : Char}
    (h : piece s = .ok (some c, rest)) (hrest : literalChars rest = .ok (cs, last)) :
    literalChars s = .ok (c :: cs, last) := by
  unfold literalChars
  split
  · next hfault => cases h.symm.trans hfault
  · next hnone => cases h.symm.trans hnone
  · next hsome =>
    cases h.symm.trans hsome
    exact bind_eq_ok_iff.mpr ⟨_, hrest, rfl⟩

theorem literalChars_eq_ok_iff {s rest cs : List Char} :
    literalChars s = .ok (cs, rest) ↔ ∃ body, Pieces body cs ∧ s = body ++ '"' :: rest := by
  constructor
  · intro h
    fun_induction literalChars s generalizing cs rest with
    | case1 => cases h
    | case2 s last hnone =>
      cases h
      exact ⟨[], .nil, piece_eq_ok_none_iff.mp hnone⟩
    | case3 s c more hsome ih =>
      obtain ⟨⟨found, last⟩, hmore, hend⟩ := bind_eq_ok_iff.mp h
      cases hend
      obtain ⟨t, ht, rfl⟩ := piece_eq_ok_some_iff.mp hsome
      obtain ⟨body, hbody, rfl⟩ := ih hmore
      exact ⟨t ++ body, .cons ht hbody, (List.append_assoc t body _).symm⟩
  · rintro ⟨body, hbody, rfl⟩
    induction hbody with
    | nil => exact literalChars_of_none (piece_eq_ok_none_iff.mpr rfl)
    | @cons t u _ _ ht _ ih =>
      exact literalChars_of_some
        (piece_eq_ok_some_iff.mpr ⟨t, ht, List.append_assoc t u _⟩) ih

/-- The reader behind an opening quote accepts exactly the literals. -/
theorem literalTail_eq_ok_iff {s rest : List Char} {value : String} :
    literalTail s = .ok (value, rest) ↔ ∃ t, Literal t value ∧ '"' :: s = t ++ rest := by
  constructor
  · intro h
    obtain ⟨⟨cs, last⟩, hchars, hend⟩ := bind_eq_ok_iff.mp h
    cases hend
    obtain ⟨body, hbody, rfl⟩ := literalChars_eq_ok_iff.mp hchars
    rw [← @String.toList_ofList cs] at hbody
    refine ⟨_, .quoted hbody, ?_⟩
    rw [List.cons_append, List.append_assoc]
    rfl
  · rintro ⟨t, ⟨hbody⟩, hs⟩
    rw [List.cons_append, List.append_assoc] at hs
    have hs := (List.cons.inj hs).2
    refine bind_eq_ok_iff.mpr ⟨_, literalChars_eq_ok_iff.mpr ⟨_, hbody, hs⟩, ?_⟩
    show Except.ok (String.ofList value.toList, rest) = _
    rw [String.ofList_toList]

end Retarget.Json
