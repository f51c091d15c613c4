import Mathlib.Data.List.DropRight
import Retarget.Json.Value
import Retarget.Proofs.Literal

/-!
# Tokens and the blanks between them

A JSON text is a sequence of tokens: string literals, words and punctuation. Blanks may stand before
every token and behind the last one. `Spaced tokens s rest` says that a text begins with given
tokens and goes on with a rest, so that what two readers take one after the other is what the tokens
of the first and then those of the second make up (`spaced_append_iff`).

Results:
1. `blanks_iff`, `spaced_cons_iff`, `spaced_append_iff`: the readers skip exactly the blanks, and the
   next token is found behind them.
2. `text_eq_ok_iff`, `unit_eq_ok_iff`, `colon_eq_ok_iff`, `orNull_eq_ok_iff`, `finish_eq_ok_iff`:
   each reader takes exactly its tokens.
3. `key_eq_ok_none_iff`, `key_eq_ok_some_iff`: the reader of a key takes the closing brace, or a
   literal with what has to stand before it.
-/

namespace Retarget.Json

/-! ## Definitions -/

/-- A part of a text in which no blanks may be put. -/
abbrev Token := List Char

/-- The token for a character of punctuation. -/
def mark (c : Char) : Token := [c]

/-- The word `null`. -/
def nullWord : Token := ['n', 'u', 'l', 'l']

/-- The text holds blanks only. -/
def Blanks (s : List Char) : Prop :=
  ∀ c ∈ s, c ∈ [' ', '\t', '\n', '\r']

/-- `Spaced tokens s rest`: the text `s` is made of the tokens, with blanks before each of them, and
of the text `rest` behind them. -/
inductive Spaced : List Token → List Char → List Char → Prop
  | nil {s : List Char} : Spaced [] s s
  | cons {blanks token s rest : List Char} {tokens : List Token} :
      Blanks blanks → Spaced tokens s rest → Spaced (token :: tokens) (blanks ++ (token ++ s)) rest

/-- The text is made of the tokens, with blanks before each of them and behind the last one. -/
def Written (tokens : List Token) (s : List Char) : Prop :=
  ∃ rest, Spaced tokens s rest ∧ Blanks rest

/-! ## 1. Finding the next token -/

theorem isSpace_iff {c : Char} : isSpace c = true ↔ c ∈ [' ', '\t', '\n', '\r'] := by
  simp only [isSpace, Bool.or_eq_true, decide_eq_true_eq, List.mem_cons, List.not_mem_nil, or_false]
  tauto

/-- The blanks are what the readers skip. -/
theorem blanks_iff {s : List Char} : Blanks s ↔ ∀ c ∈ s, isSpace c = true := by
  simp only [Blanks, isSpace_iff]

theorem skip_of_blanks {blanks : List Char} (h : Blanks blanks) (s : List Char) :
    skip (blanks ++ s) = skip s :=
  List.dropWhile_append_of_pos (blanks_iff.mp h)

theorem skip_cons_of_not_space {c : Char} (h : isSpace c = false) (cs : List Char) :
    skip (c :: cs) = c :: cs :=
  List.dropWhile_cons_of_neg (Bool.eq_false_iff.mp h)

theorem exists_blanks (s : List Char) : ∃ blanks, Blanks blanks ∧ s = blanks ++ skip s :=
  ⟨s.takeWhile isSpace, blanks_iff.mpr fun _ hc => List.mem_takeWhile_imp hc,
    List.takeWhile_append_dropWhile.symm⟩

theorem skip_eq_nil_iff {s : List Char} : skip s = [] ↔ Blanks s :=
  List.dropWhile_eq_nil_iff.trans blanks_iff.symm

theorem skip_skip (s : List Char) : skip (skip s) = skip s :=
  List.dropWhile_idempotent isSpace s

/-- A token that does not begin with a blank stands where the blanks end. -/
theorem spaced_cons_iff {c : Char} (hc : isSpace c = false) {cs s rest : List Char}
    {tokens : List Token} :
    Spaced ((c :: cs) :: tokens) s rest ↔
      ∃ middle, skip s = c :: (cs ++ middle) ∧ Spaced tokens middle rest := by
  constructor
  · rintro ⟨⟩
    next blanks middle hblanks htokens =>
    refine ⟨middle, ?_, htokens⟩
    rw [skip_of_blanks hblanks, List.cons_append, skip_cons_of_not_space hc]
  · rintro ⟨middle, hskip, htokens⟩
    obtain ⟨blanks, hblanks, hs⟩ := exists_blanks s
    rw [hs, hskip]
    exact .cons hblanks htokens

theorem spaced_singleton_iff {c : Char} (hc : isSpace c = false) {cs s rest : List Char} :
    Spaced [c :: cs] s rest ↔ skip s = c :: (cs ++ rest) := by
  rw [spaced_cons_iff hc]
  constructor
  · rintro ⟨middle, hskip, ⟨⟩⟩
    exact hskip
  · intro hskip
    exact ⟨rest, hskip, .nil⟩

theorem spaced_append_iff {tokens more : List Token} {s rest : List Char} :
    Spaced (tokens ++ more) s rest ↔ ∃ middle, Spaced tokens s middle ∧ Spaced more middle rest := by
  constructor
  · intro h
    induction tokens generalizing s with
    | nil => exact ⟨s, .nil, h⟩
    | cons token tokens ih =>
      cases h with
      | cons hblanks h =>
        obtain ⟨middle, hfirst, hmore⟩ := ih h
        exact ⟨middle, .cons hblanks hfirst, hmore⟩
  · rintro ⟨middle, hfirst, hmore⟩
    induction hfirst with
    | nil => exact hmore
    | cons hblanks _ ih => exact .cons hblanks (ih hmore)

/-! ## 2. The readers of tokens -/

theorem finish_eq_ok_iff {s : List Char} : finish s = .ok () ↔ Blanks s := by
  rw [← skip_eq_nil_iff]
  unfold finish
  split
  · next h => exact iff_of_true rfl h
  · next h => exact iff_of_false (by simp) h

theorem word_eq_ok_iff {letters s rest : List Char} :
    word letters s = .ok rest ↔ s = letters ++ rest := by
  fun_induction word letters s with
  | case1 => exact ⟨fun h => Except.ok.inj h, fun h => congrArg _ h⟩
  | case2 => exact iff_of_false (by simp) (by simp)
  | case3 _ _ _ ih => rw [ih, List.cons_append, List.cons.injEq, eq_self, true_and]
  | case4 _ _ _ _ hne =>
    refine iff_of_false (by simp) ?_
    intro h
    exact hne (List.cons.inj h).1

theorem unit_eq_ok_iff {s rest : List Char} : unit s = .ok rest ↔ Spaced [nullWord] s rest := by
  rw [nullWord, spaced_singleton_iff (by decide)]
  unfold unit
  split
  · next cs h => rw [h, word_eq_ok_iff, List.cons.injEq, eq_self, true_and]; rfl
  · next h => exact iff_of_false (by simp) fun hs => h _ hs

theorem colon_eq_ok_iff {s rest : List Char} :
    colon s = .ok rest ↔ Spaced [mark ':'] s rest := by
  rw [mark, spaced_singleton_iff (by decide)]
  unfold colon
  split
  · next cs h => rw [h, Except.ok.injEq, List.cons.injEq, eq_self, true_and]; rfl
  · next h =>
    rw [h]
    exact iff_of_false (by simp) (by simp)
  · next h _ => exact iff_of_false (by simp) fun hs => h _ hs

theorem Literal.exists_cons {t : Token} {value : String} (h : Literal t value) :
    ∃ body, t = '"' :: body := by
  cases h with
  | quoted => exact ⟨_, rfl⟩

theorem Literal.spaced_iff {t : Token} {value : String} (h : Literal t value)
    {s rest : List Char} : Spaced [t] s rest ↔ skip s = t ++ rest := by
  obtain ⟨body, rfl⟩ := h.exists_cons
  exact spaced_singleton_iff (by decide)

theorem text_eq_ok_iff {wanted : Wanted} {s rest : List Char} {value : String} :
    text wanted s = .ok (value, rest) ↔ ∃ t, Literal t value ∧ Spaced [t] s rest := by
  unfold text
  split
  · next cs h =>
    rw [literalTail_eq_ok_iff]
    refine exists_congr fun t => and_congr_right fun ht => ?_
    rw [ht.spaced_iff, h]
  · next h =>
    refine iff_of_false (by simp) ?_
    rintro ⟨t, ht, hs⟩
    obtain ⟨body, rfl⟩ := ht.exists_cons
    exact h _ ((spaced_singleton_iff (by decide)).mp hs)

theorem text_skip (wanted : Wanted) (s : List Char) : text wanted (skip s) = text wanted s := by
  rw [text, text, skip_skip]

theorem text_null {wanted : Wanted} {s cs : List Char} {result : String × List Char}
    (h : skip s = 'n' :: cs) : text wanted s ≠ .ok result := by
  unfold text
  rw [h]
  rintro ⟨⟩

theorem orNull_skip {α : Type} (read : List Char → Reading (α × List Char)) (s : List Char) :
    orNull read (skip s) = orNull read s := by
  unfold orNull
  rw [skip_skip]

/-- A reader that does not take the word `null` itself, together with that word. -/
theorem orNull_eq_ok_iff {α : Type} {read : List Char → Reading (α × List Char)}
    (hskip : ∀ s, read (skip s) = read s)
    (hnull : ∀ {s cs result}, skip s = 'n' :: cs → read s ≠ .ok result)
    {s rest : List Char} {found : Option α} :
    orNull read s = .ok (found, rest) ↔
      (found = none ∧ Spaced [nullWord] s rest) ∨
        ∃ value, found = some value ∧ read s = .ok (value, rest) := by
  have hspaced : Spaced [nullWord] s rest ↔ skip s = 'n' :: (nullTail ++ rest) :=
    spaced_singleton_iff (by decide)
  unfold orNull
  split
  · next cs h =>
    rw [hspaced, h, List.cons.injEq, eq_self, true_and, ← word_eq_ok_iff]
    constructor
    · intro hread
      obtain ⟨last, hword, hend⟩ := bind_eq_ok_iff.mp hread
      cases hend
      exact .inl ⟨rfl, hword⟩
    · rintro (⟨rfl, hword⟩ | ⟨value, rfl, hread⟩)
      · exact bind_eq_ok_iff.mpr ⟨_, hword, rfl⟩
      · exact absurd hread (hnull h)
  · next h =>
    rw [hskip]
    constructor
    · intro hread
      obtain ⟨⟨value, last⟩, hvalue, hend⟩ := bind_eq_ok_iff.mp hread
      cases hend
      exact .inr ⟨value, rfl, hvalue⟩
    · rintro (⟨rfl, hs⟩ | ⟨value, rfl, hread⟩)
      · exact absurd (hspaced.mp hs) (h _)
      · exact bind_eq_ok_iff.mpr ⟨_, hread, rfl⟩

/-! ## 3. Members of an object -/

/-- What stands before a key: a comma, unless the key is the first one. -/
def separator : Bool → List Token
  | true => []
  | false => [mark ',']

theorem keyLiteral_eq_ok_iff {s rest : List Char} {found : Option String} :
    keyLiteral s = .ok (found, rest) ↔
      ∃ name t, found = some name ∧ Literal t name ∧ s = t ++ rest := by
  unfold keyLiteral
  split
  · next cs =>
    constructor
    · intro h
      obtain ⟨⟨name, last⟩, hliteral, hend⟩ := bind_eq_ok_iff.mp h
      cases hend
      obtain ⟨t, ht, hs⟩ := literalTail_eq_ok_iff.mp hliteral
      exact ⟨name, t, rfl, ht, hs⟩
    · rintro ⟨name, t, rfl, ht, hs⟩
      exact bind_eq_ok_iff.mpr ⟨_, literalTail_eq_ok_iff.mpr ⟨t, ht, hs⟩, rfl⟩
  · next h =>
    refine iff_of_false (by simp) ?_
    rintro ⟨name, t, _, ht, rfl⟩
    obtain ⟨body, rfl⟩ := ht.exists_cons
    exact h _ rfl

theorem key_eq_ok_none_iff {first : Bool} {s rest : List Char} :
    key first s = .ok (none, rest) ↔ Spaced [mark '\x7d'] s rest := by
  rw [mark, spaced_singleton_iff (by decide)]
  have hliteral : ∀ cs, keyLiteral cs ≠ .ok (none, rest) := by
    intro cs h
    obtain ⟨name, _, hname, _⟩ := keyLiteral_eq_ok_iff.mp h
    cases hname
  unfold key
  split
  · next h =>
    rw [h]
    exact iff_of_false (by simp) (by simp)
  · next cs h =>
    rw [h, Except.ok.injEq, Prod.mk.injEq, eq_self, true_and, List.cons.injEq, eq_self, true_and]
    rfl
  · next c cs hclose h =>
    refine iff_of_false ?_ fun hs => hclose (List.cons.inj (h.symm.trans hs)).1
    split
    · exact hliteral _
    · split
      · split
        · simp
        · simp
        · exact hliteral _
      · simp

theorem keyLiteral_skip_iff {s rest : List Char} {name : String} :
    keyLiteral (skip s) = .ok (some name, rest) ↔ ∃ t, Literal t name ∧ Spaced [t] s rest := by
  rw [keyLiteral_eq_ok_iff]
  constructor
  · rintro ⟨_, t, ⟨⟩, ht, hs⟩
    exact ⟨t, ht, ht.spaced_iff.mpr hs⟩
  · rintro ⟨t, ht, hs⟩
    exact ⟨name, t, rfl, ht, ht.spaced_iff.mp hs⟩

theorem key_true_eq_ok_some_iff {s rest : List Char} {name : String} :
    key true s = .ok (some name, rest) ↔ ∃ t, Literal t name ∧ Spaced [t] s rest := by
  rw [← keyLiteral_skip_iff]
  unfold key
  split
  · next h =>
    rw [h]
    exact iff_of_false (by simp) (by simp [keyLiteral])
  · next cs h =>
    rw [h]
    exact iff_of_false (by simp) (by simp [keyLiteral])
  · next h => rw [h, if_pos rfl]

theorem key_false_eq_ok_some_iff {s rest : List Char} {name : String} :
    key false s = .ok (some name, rest) ↔
      ∃ t, Literal t name ∧ Spaced [mark ',', t] s rest := by
  -- Behind the comma the key is read as it is behind the opening brace.
  have hcomma : (∃ t, Literal t name ∧ Spaced [mark ',', t] s rest) ↔
      ∃ cs, skip s = ',' :: cs ∧ keyLiteral (skip cs) = .ok (some name, rest) := by
    simp only [keyLiteral_skip_iff]
    constructor
    · rintro ⟨t, ht, hs⟩
      obtain ⟨cs, hcs, hs⟩ := (spaced_cons_iff (by decide)).mp hs
      exact ⟨cs, hcs, t, ht, hs⟩
    · rintro ⟨cs, hcs, t, ht, hs⟩
      exact ⟨t, ht, (spaced_cons_iff (by decide)).mpr ⟨cs, hcs, hs⟩⟩
  rw [hcomma]
  unfold key
  split
  · next h =>
    rw [h]
    exact iff_of_false (by simp) (by simp [keyLiteral])
  · next cs h =>
    rw [h]
    exact iff_of_false (by simp) (by simp [keyLiteral])
  · next c cs _ h =>
    rw [h, if_neg Bool.false_ne_true]
    split
    · next hc =>
      subst hc
      have hkey : (∃ ds, ',' :: cs = ',' :: ds ∧ keyLiteral (skip ds) = .ok (some name, rest)) ↔
          keyLiteral (skip cs) = .ok (some name, rest) := by
        simp
      rw [hkey]
      split
      · next hskip =>
        rw [hskip]
        exact iff_of_false (by simp) (by simp [keyLiteral])
      · next hskip =>
        rw [hskip]
        exact iff_of_false (by simp) (by simp [keyLiteral])
      · next hskip => rfl
    · next hc =>
      refine iff_of_false (by simp) ?_
      rintro ⟨ds, hds, _⟩
      exact hc (List.cons.inj hds).1

/-- The reader of a key takes what stands before it, and the key. -/
theorem key_eq_ok_some_iff {first : Bool} {s rest : List Char} {name : String} :
    key first s = .ok (some name, rest) ↔
      ∃ t, Literal t name ∧ Spaced (separator first ++ [t]) s rest := by
  cases first with
  | true => exact key_true_eq_ok_some_iff
  | false => exact key_false_eq_ok_some_iff

end Retarget.Json
