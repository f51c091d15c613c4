import Mathlib.Data.List.Nodup
import Retarget.Proofs.MapLanguage

/-!
# The language of options

Options are written in four ways: as a blank text or as `null`, which leave everything at its
default; as an object with some of three members, each at most once and in any order; and as the
list of the three values. This is the whole language: the loader accepts exactly these texts and
gives the options that they stand for.

Results:
1. `mode_eq_ok_iff`: a mode is a word, or an object with that word as its only key.
2. `fieldValue_eq_ok_iff`: the reader of a value takes exactly the values of its member.
3. `members_eq_ok_iff`: the reader of an object takes exactly members whose keys are known and
   differ, and remembers which ones it has seen.
4. `listValues_eq_ok_iff`: the reader of a list takes exactly three values.
5. `load_options_iff`: the loader accepts exactly the texts of the language.
-/

namespace Retarget

/-! ## Definitions -/

namespace Config

open Json

/-- A member of an options object, with its value. -/
inductive Entry where
  | map (value : ModuleMap)
  | lead (value : Option String)
  | mode (value : Option Mode)

namespace Entry

/-- The key of a member. -/
def key : Entry → String
  | map _ => "moduleMap"
  | lead _ => "modulePrefix"
  | mode _ => "mode"

/-- Which member it is. -/
def field : Entry → Field
  | map _ => .map
  | lead _ => .lead
  | mode _ => .mode

/-- Puts the value in its place. -/
def set (options : Options) : Entry → Options
  | map value => { options with map := value }
  | lead value => { options with lead := value }
  | mode value => { options with mode := value }

end Entry

/-- The word for a mode. -/
inductive ModeWord : String → Mode → Prop
  | test : ModeWord "test" .test
  | normal : ModeWord "normal" .normal

/-- The tokens of a mode: its word, or an object with the word as its key and `null` as its
value. -/
inductive ModeTokens : List Token → Mode → Prop
  | word {t : Token} {word : String} {mode : Mode} :
      Literal t word → ModeWord word mode → ModeTokens [t] mode
  | object {t : Token} {word : String} {mode : Mode} :
      Literal t word → ModeWord word mode →
      ModeTokens [mark '\x7b', t, mark ':', nullWord, mark '\x7d'] mode

/-- The tokens of a value: a module map; or a lead or a mode, for which `null` leaves it open. -/
inductive ValueTokens : List Token → Entry → Prop
  | map {tokens : List Token} {value : ModuleMap} :
      MapTokens tokens value → ValueTokens tokens (.map value)
  | lead {t : Token} {value : String} : Literal t value → ValueTokens [t] (.lead (some value))
  | noLead : ValueTokens [nullWord] (.lead none)
  | mode {tokens : List Token} {value : Mode} :
      ModeTokens tokens value → ValueTokens tokens (.mode (some value))
  | noMode : ValueTokens [nullWord] (.mode none)

/-- A member of an options object: the literal of its key, a colon, and its value. -/
inductive Member : List Token → Entry → Prop
  | entry {t : Token} {tokens : List Token} {entry : Entry} :
      Literal t entry.key → ValueTokens tokens entry →
      Member (t :: mark ':' :: tokens) entry

/-- The tokens of options that are written out.

* `object`: an object of which no two members have the same key. What is not there keeps its
  default.
* `list`: the list of a module map, a lead and a mode. -/
inductive OptionsTokens : List Token → Options → Prop
  | object {tokens : List Token} {entries : List Entry} :
      Object Member tokens entries → (entries.map Entry.key).Nodup →
      OptionsTokens tokens (entries.foldl Entry.set {})
  | list {first second third : List Token} {map : ModuleMap} {lead : Option String}
      {mode : Option Mode} :
      ValueTokens first (.map map) → ValueTokens second (.lead lead) →
      ValueTokens third (.mode mode) →
      OptionsTokens
        (mark '[' :: (List.intercalate [mark ','] [first, second, third] ++ [mark ']']))
        { map, lead, mode }

/-- `OptionsText s options`: the text stands for the options.

* `blank`: nothing is left of the text when white space is trimmed.
* `null`: the text is the word `null`.
* `written`: the options are written out. -/
inductive OptionsText (s : List Char) : Options → Prop
  | blank : Text.trim s = [] → OptionsText s {}
  | null : Written [nullWord] s → OptionsText s {}
  | written {tokens : List Token} {options : Options} :
      OptionsTokens tokens options → Written tokens s → OptionsText s options

/-- Takes the value of a member into a draft. -/
def Draft.put (draft : Draft) : Entry → Draft
  | .map value => { draft with map := some value }
  | .lead value => { draft with lead := some value }
  | .mode value => { draft with mode := some value }

/-- Members that a draft can still take: their keys differ, and it has seen none of them. -/
def Draft.Open (draft : Draft) (entries : List Entry) : Prop :=
  (entries.map Entry.field).Nodup ∧ ∀ entry ∈ entries, draft.has entry.field = false

end Config

/-! ## 1. Modes -/

theorem Mode.ofName?_eq_some_iff {word : String} {mode : Mode} :
    ofName? word = some mode ↔ Config.ModeWord word mode := by
  constructor
  · intro h
    unfold ofName? at h
    split at h
    · next hword =>
      cases h
      exact hword ▸ .test
    · split at h
      · next hword =>
        cases h
        exact hword ▸ .normal
      · cases h
  · intro h
    cases h with
    | test => rfl
    | normal => rfl

namespace Config

open Json

theorem variant_eq_ok_iff {s rest : List Char} {found : Mode} :
    variant s = .ok (found, rest) ↔
      ∃ t word, Literal t word ∧ ModeWord word found ∧ Spaced [t] s rest := by
  constructor
  · intro h
    obtain ⟨⟨word, last⟩, htext, hend⟩ := bind_eq_ok_iff.mp h
    dsimp only at hend
    split at hend
    · next hword =>
      cases hend
      obtain ⟨t, ht, hs⟩ := text_eq_ok_iff.mp htext
      exact ⟨t, word, ht, Mode.ofName?_eq_some_iff.mp hword, hs⟩
    · cases hend
  · rintro ⟨t, word, ht, hword, hs⟩
    refine bind_eq_ok_iff.mpr ⟨_, text_eq_ok_iff.mpr ⟨t, ht, hs⟩, ?_⟩
    dsimp only
    rw [Mode.ofName?_eq_some_iff.mpr hword]

theorem closeVariant_eq_ok_iff {s rest : List Char} :
    closeVariant s = .ok rest ↔ Spaced [mark '\x7d'] s rest := by
  rw [mark, spaced_singleton_iff (by decide)]
  unfold closeVariant
  split
  · next cs h => rw [h, Except.ok.injEq, List.cons.injEq, eq_self, true_and]; rfl
  · next h =>
    rw [h]
    exact iff_of_false (by simp) (by simp)
  · next h _ => exact iff_of_false (by simp) fun hs => h _ hs

theorem variantMember_eq_ok_iff {s rest : List Char} {found : Mode} :
    variantMember s = .ok (found, rest) ↔
      ∃ t word, Literal t word ∧ ModeWord word found ∧
        Spaced [t, mark ':', nullWord, mark '\x7d'] s rest := by
  constructor
  · intro h
    obtain ⟨⟨mode, s₁⟩, h₁, h⟩ := bind_eq_ok_iff.mp h
    obtain ⟨s₂, h₂, h⟩ := bind_eq_ok_iff.mp h
    obtain ⟨s₃, h₃, h⟩ := bind_eq_ok_iff.mp h
    obtain ⟨s₄, h₄, hend⟩ := bind_eq_ok_iff.mp h
    cases hend
    obtain ⟨t, word, ht, hword, hs⟩ := variant_eq_ok_iff.mp h₁
    refine ⟨t, word, ht, hword, spaced_append_iff.mpr ⟨s₁, hs, ?_⟩⟩
    refine spaced_append_iff.mpr ⟨s₂, colon_eq_ok_iff.mp h₂, ?_⟩
    exact spaced_append_iff.mpr ⟨s₃, unit_eq_ok_iff.mp h₃, closeVariant_eq_ok_iff.mp h₄⟩
  · rintro ⟨t, word, ht, hword, hs⟩
    obtain ⟨s₁, h₁, hs⟩ := (@spaced_append_iff [t] _ s rest).mp hs
    obtain ⟨s₂, h₂, hs⟩ := (@spaced_append_iff [mark ':'] _ s₁ rest).mp hs
    obtain ⟨s₃, h₃, hs⟩ := (@spaced_append_iff [nullWord] _ s₂ rest).mp hs
    refine bind_eq_ok_iff.mpr ⟨_, variant_eq_ok_iff.mpr ⟨t, word, ht, hword, h₁⟩, ?_⟩
    refine bind_eq_ok_iff.mpr ⟨_, colon_eq_ok_iff.mpr h₂, ?_⟩
    refine bind_eq_ok_iff.mpr ⟨_, unit_eq_ok_iff.mpr h₃, ?_⟩
    exact bind_eq_ok_iff.mpr ⟨_, closeVariant_eq_ok_iff.mpr hs, rfl⟩

theorem mode_eq_ok_iff {s rest : List Char} {found : Mode} :
    mode s = .ok (found, rest) ↔ ∃ tokens, ModeTokens tokens found ∧ Spaced tokens s rest := by
  constructor
  · intro h
    unfold mode at h
    split at h
    · cases h
    · next cs hskip =>
      obtain ⟨t, word, ht, hword, hs⟩ := variant_eq_ok_iff.mp h
      refine ⟨[t], .word ht hword, ht.spaced_iff.mpr ?_⟩
      rw [← skip_skip, hskip]
      exact ht.spaced_iff.mp hs
    · next cs hskip =>
      obtain ⟨t, word, ht, hword, hs⟩ := variantMember_eq_ok_iff.mp h
      exact ⟨_, .object ht hword, (spaced_cons_iff (by decide)).mpr ⟨cs, hskip, hs⟩⟩
    · cases h
  · rintro ⟨tokens, htokens, hs⟩
    unfold mode
    cases htokens with
    | word ht hword =>
      obtain ⟨body, rfl⟩ := ht.exists_cons
      rw [ht.spaced_iff.mp hs]
      exact variant_eq_ok_iff.mpr
        ⟨_, _, ht, hword, ht.spaced_iff.mpr (skip_cons_of_not_space (by decide) _)⟩
    | object ht hword =>
      obtain ⟨cs, hskip, hs⟩ := (spaced_cons_iff (by decide)).mp hs
      rw [hskip]
      exact variantMember_eq_ok_iff.mpr ⟨_, _, ht, hword, hs⟩

/-! ## 2. Values -/

theorem mode_skip (s : List Char) : mode (skip s) = mode s := by
  unfold mode
  rw [skip_skip]

theorem mode_null {s cs : List Char} {result : Mode × List Char} (h : skip s = 'n' :: cs) :
    mode s ≠ .ok result := by
  unfold mode
  rw [h]
  rintro ⟨⟩

theorem valueTokens_map_iff {tokens : List Token} {map : ModuleMap} :
    ValueTokens tokens (.map map) ↔ MapTokens tokens map := by
  refine ⟨?_, .map⟩
  rintro ⟨⟩
  assumption

theorem mapValue_eq_ok_iff {s rest : List Char} {map : ModuleMap} :
    moduleMap s = .ok (map, rest) ↔
      ∃ tokens, ValueTokens tokens (.map map) ∧ Spaced tokens s rest := by
  simp only [valueTokens_map_iff, moduleMap_eq_ok_iff]

theorem leadValue_eq_ok_iff {s rest : List Char} {lead : Option String} :
    orNull (text .text) s = .ok (lead, rest) ↔
      ∃ tokens, ValueTokens tokens (.lead lead) ∧ Spaced tokens s rest := by
  rw [orNull_eq_ok_iff (text_skip .text) text_null]
  constructor
  · rintro (⟨rfl, hs⟩ | ⟨value, rfl, h⟩)
    · exact ⟨_, .noLead, hs⟩
    · obtain ⟨t, ht, hs⟩ := text_eq_ok_iff.mp h
      exact ⟨[t], .lead ht, hs⟩
  · rintro ⟨tokens, htokens, hs⟩
    cases htokens with
    | lead ht => exact .inr ⟨_, rfl, text_eq_ok_iff.mpr ⟨_, ht, hs⟩⟩
    | noLead => exact .inl ⟨rfl, hs⟩

theorem modeValue_eq_ok_iff {s rest : List Char} {found : Option Mode} :
    orNull mode s = .ok (found, rest) ↔
      ∃ tokens, ValueTokens tokens (.mode found) ∧ Spaced tokens s rest := by
  rw [orNull_eq_ok_iff mode_skip mode_null]
  constructor
  · rintro (⟨rfl, hs⟩ | ⟨value, rfl, h⟩)
    · exact ⟨_, .noMode, hs⟩
    · obtain ⟨tokens, htokens, hs⟩ := mode_eq_ok_iff.mp h
      exact ⟨tokens, .mode htokens, hs⟩
  · rintro ⟨tokens, htokens, hs⟩
    cases htokens with
    | mode hmode => exact .inr ⟨_, rfl, mode_eq_ok_iff.mpr ⟨_, hmode, hs⟩⟩
    | noMode => exact .inl ⟨rfl, hs⟩

/-- The reader of a member's value takes exactly the values of that member. -/
theorem fieldValue_eq_ok_iff {draft draft' : Draft} {field : Field} {s rest : List Char} :
    fieldValue draft field s = .ok (draft', rest) ↔
      ∃ entry tokens, entry.field = field ∧ ValueTokens tokens entry ∧
        draft' = draft.put entry ∧ Spaced tokens s rest := by
  constructor
  · intro h
    cases field with
    | map =>
      obtain ⟨⟨map, last⟩, hmap, hend⟩ := bind_eq_ok_iff.mp h
      cases hend
      obtain ⟨tokens, htokens, hs⟩ := mapValue_eq_ok_iff.mp hmap
      exact ⟨.map map, tokens, rfl, htokens, rfl, hs⟩
    | lead =>
      obtain ⟨⟨lead, last⟩, hlead, hend⟩ := bind_eq_ok_iff.mp h
      cases hend
      obtain ⟨tokens, htokens, hs⟩ := leadValue_eq_ok_iff.mp hlead
      exact ⟨.lead lead, tokens, rfl, htokens, rfl, hs⟩
    | mode =>
      obtain ⟨⟨mode, last⟩, hmode, hend⟩ := bind_eq_ok_iff.mp h
      cases hend
      obtain ⟨tokens, htokens, hs⟩ := modeValue_eq_ok_iff.mp hmode
      exact ⟨.mode mode, tokens, rfl, htokens, rfl, hs⟩
  · rintro ⟨entry, tokens, rfl, htokens, rfl, hs⟩
    cases entry with
    | map value => exact bind_eq_ok_iff.mpr ⟨_, mapValue_eq_ok_iff.mpr ⟨_, htokens, hs⟩, rfl⟩
    | lead value => exact bind_eq_ok_iff.mpr ⟨_, leadValue_eq_ok_iff.mpr ⟨_, htokens, hs⟩, rfl⟩
    | mode value => exact bind_eq_ok_iff.mpr ⟨_, modeValue_eq_ok_iff.mpr ⟨_, htokens, hs⟩, rfl⟩

/-! ## 3. The object form -/

theorem Entry.name_field (entry : Entry) : entry.field.name = entry.key := by
  cases entry <;> rfl

theorem Field.ofName?_eq_some_iff {key : String} {field : Field} :
    Field.ofName? key = some field ↔ field.name = key := by
  constructor
  · intro h
    simpa using List.find?_some h
  · rintro rfl
    cases field <;> decide

theorem Field.name_injective : Function.Injective Field.name := by
  intro field other h
  exact Option.some.inj
    ((ofName?_eq_some_iff.mpr h).symm.trans (ofName?_eq_some_iff.mpr rfl))

/-- Members have different keys when they are different ones. -/
theorem Entry.nodup_key_iff {entries : List Entry} :
    (entries.map Entry.key).Nodup ↔ (entries.map Entry.field).Nodup := by
  have hkeys : entries.map Entry.key = (entries.map Entry.field).map Field.name := by
    rw [List.map_map]
    exact List.map_congr_left fun entry _ => entry.name_field.symm
  rw [hkeys, List.nodup_map_iff Field.name_injective]

theorem Draft.has_put (draft : Draft) (entry : Entry) (field : Field) :
    (draft.put entry).has field = (decide (entry.field = field) || draft.has field) := by
  cases entry <;> cases field <;> rfl

theorem Draft.open_cons_iff {draft : Draft} {entry : Entry} {entries : List Entry} :
    draft.Open (entry :: entries) ↔
      draft.has entry.field = false ∧ (draft.put entry).Open entries := by
  simp only [Open, has_put, List.map_cons, List.nodup_cons, List.forall_mem_cons,
    Bool.or_eq_false_iff, decide_eq_false_iff_not, List.mem_map, not_exists, not_and]
  constructor
  · rintro ⟨⟨hnew, hnodup⟩, hentry, hunseen⟩
    exact ⟨hentry, hnodup, fun e he => ⟨fun h => hnew e he h.symm, hunseen e he⟩⟩
  · rintro ⟨hentry, hnodup, h⟩
    exact ⟨⟨fun e he hfield => (h e he).1 hfield.symm, hnodup⟩, hentry, fun e he => (h e he).2⟩

theorem Draft.open_nothing_iff {entries : List Entry} :
    ({} : Draft).Open entries ↔ (entries.map Entry.key).Nodup := by
  rw [Entry.nodup_key_iff]
  exact and_iff_left fun entry _ => by cases entry <;> rfl

theorem Draft.options_foldl (draft : Draft) (entries : List Entry) :
    (entries.foldl Draft.put draft).options = entries.foldl Entry.set draft.options :=
  (List.foldl_hom Draft.options fun _ entry => by cases entry <;> rfl).symm

theorem member_eq_ok_iff {draft draft' : Draft} {name : String} {s rest : List Char} :
    member draft name s = .ok (draft', rest) ↔
      ∃ entry tokens, entry.key = name ∧ draft.has entry.field = false ∧
        ValueTokens tokens entry ∧ draft' = draft.put entry ∧
        Spaced (mark ':' :: tokens) s rest := by
  constructor
  · intro h
    unfold member at h
    split at h
    · cases h
    · next field hfield =>
      split at h
      · cases h
      · next hhas =>
        obtain ⟨middle, hcolon, hvalue⟩ := bind_eq_ok_iff.mp h
        obtain ⟨entry, tokens, rfl, htokens, hput, hs⟩ := fieldValue_eq_ok_iff.mp hvalue
        have hname := entry.name_field.symm.trans (Field.ofName?_eq_some_iff.mp hfield)
        exact ⟨entry, tokens, hname, Bool.eq_false_iff.mpr hhas, htokens, hput,
          spaced_append_iff.mpr ⟨middle, colon_eq_ok_iff.mp hcolon, hs⟩⟩
  · rintro ⟨entry, tokens, rfl, hhas, htokens, hput, hs⟩
    obtain ⟨middle, hcolon, hs⟩ := (@spaced_append_iff [mark ':'] tokens s rest).mp hs
    unfold member
    rw [Field.ofName?_eq_some_iff.mpr entry.name_field]
    show (if draft.has entry.field then _ else _) = _
    rw [if_neg (Bool.eq_false_iff.mp hhas)]
    exact bind_eq_ok_iff.mpr ⟨middle, colon_eq_ok_iff.mpr hcolon,
      fieldValue_eq_ok_iff.mpr ⟨entry, tokens, rfl, htokens, hput, hs⟩⟩

theorem members_of_none {first : Bool} {draft : Draft} {s rest : List Char}
    (h : key first s = .ok (none, rest)) : members first draft s = .ok (draft, rest) := by
  unfold members
  split
  · next hfault => cases h.symm.trans hfault
  · next hnone =>
    cases h.symm.trans hnone
    rfl
  · next hsome => cases h.symm.trans hsome

theorem members_of_some {first : Bool} {draft draft' : Draft} {name : String}
    {s rest rest' : List Char} (hkey : key first s = .ok (some name, rest))
    (hmember : member draft name rest = .ok (draft', rest')) :
    members first draft s = members false draft' rest' := by
  rw [members]
  split
  · next hfault => cases hkey.symm.trans hfault
  · next hnone => cases hkey.symm.trans hnone
  · next hsome =>
    cases hkey.symm.trans hsome
    split
    · next hfault => cases hmember.symm.trans hfault
    · next hvalue =>
      cases hmember.symm.trans hvalue
      rfl

/-- The reader of an object takes exactly members that the draft can still take. -/
theorem members_eq_ok_iff {first : Bool} {draft draft' : Draft} {s rest : List Char} :
    members first draft s = .ok (draft', rest) ↔
      ∃ found entries, List.Forall₂ Member found entries ∧ draft.Open entries ∧
        draft' = entries.foldl Draft.put draft ∧
        Spaced (memberTokens first found ++ [mark '\x7d']) s rest := by
  constructor
  · intro h
    fun_induction members first draft s with
    | case1 => cases h
    | case2 first draft s last hnone =>
      cases h
      refine ⟨[], [], .nil, ⟨List.nodup_nil, List.forall_mem_nil _⟩, rfl, ?_⟩
      rw [memberTokens_nil]
      exact key_eq_ok_none_iff.mp hnone
    | case3 => cases h
    | case4 first draft s name middle hkey next last hmember ih =>
      obtain ⟨t, ht, hs⟩ := key_eq_ok_some_iff.mp hkey
      obtain ⟨entry, tokens, rfl, hhas, htokens, rfl, hmiddle⟩ := member_eq_ok_iff.mp hmember
      obtain ⟨found, entries, hfound, hopen, hdraft, hlast⟩ := ih h
      exact ⟨(t :: mark ':' :: tokens) :: found, entry :: entries,
        .cons (.entry ht htokens) hfound, Draft.open_cons_iff.mpr ⟨hhas, hopen⟩, hdraft,
        spaced_memberTokens_cons_iff.mpr ⟨middle, last, hs, hmiddle, hlast⟩⟩
  · rintro ⟨found, entries, hfound, hopen, rfl, hs⟩
    -- Along the members: whatever the draft takes, it stays open for those that come later.
    induction hfound generalizing first draft s with
    | nil =>
      rw [memberTokens_nil] at hs
      exact members_of_none (key_eq_ok_none_iff.mpr hs)
    | cons hentry _ ih =>
      cases hentry with
      | entry ht htokens =>
        obtain ⟨hhas, hopen⟩ := Draft.open_cons_iff.mp hopen
        obtain ⟨s₁, s₂, hs, hmiddle, hlast⟩ := spaced_memberTokens_cons_iff.mp hs
        have hmember := member_eq_ok_iff.mpr ⟨_, _, rfl, hhas, htokens, rfl, hmiddle⟩
        rw [members_of_some (key_eq_ok_some_iff.mpr ⟨_, ht, hs⟩) hmember]
        exact ih hopen hlast

/-! ## 4. The list form -/

/-- No value begins like the end of a list. -/
theorem ValueTokens.exists_cons {tokens : List Token} {entry : Entry}
    (h : ValueTokens tokens entry) :
    ∃ c cs more, tokens = (c :: cs) :: more ∧ isSpace c = false ∧ c ≠ ']' := by
  cases h with
  | map hmap =>
    obtain ⟨_, ⟨_, _, rfl⟩, _⟩ := hmap
    exact ⟨'\x7b', _, _, rfl, by decide, by decide⟩
  | lead ht =>
    obtain ⟨body, rfl⟩ := ht.exists_cons
    exact ⟨'"', _, _, rfl, by decide, by decide⟩
  | noLead => exact ⟨'n', _, _, rfl, by decide, by decide⟩
  | mode hmode =>
    cases hmode with
    | word ht =>
      obtain ⟨body, rfl⟩ := ht.exists_cons
      exact ⟨'"', _, _, rfl, by decide, by decide⟩
    | object => exact ⟨'\x7b', _, _, rfl, by decide, by decide⟩
  | noMode => exact ⟨'n', _, _, rfl, by decide, by decide⟩

theorem ValueTokens.skip_eq {tokens : List Token} {entry : Entry} (h : ValueTokens tokens entry)
    {s rest : List Char} (hs : Spaced tokens s rest) : ∃ c cs, skip s = c :: cs ∧ c ≠ ']' := by
  obtain ⟨c, cs, more, rfl, hspace, hc⟩ := h.exists_cons
  obtain ⟨middle, hskip, _⟩ := (spaced_cons_iff hspace).mp hs
  exact ⟨c, _, hskip, hc⟩

theorem moduleMap_skip (s : List Char) : moduleMap (skip s) = moduleMap s := by
  unfold moduleMap
  rw [skip_skip]

theorem listMap_eq_ok {s rest : List Char} {map : ModuleMap} (h : listMap s = .ok (map, rest)) :
    moduleMap s = .ok (map, rest) ∨ ∃ cs, rest = ']' :: cs := by
  unfold listMap at h
  split at h
  · cases h
  · cases h
    exact .inr ⟨_, rfl⟩
  · exact .inl (moduleMap_skip s ▸ h)

theorem listMap_of_value {s cs : List Char} {c : Char} (hs : skip s = c :: cs) (hc : c ≠ ']') :
    listMap s = moduleMap s := by
  rw [← moduleMap_skip]
  unfold listMap
  split
  · next h => cases hs.symm.trans h
  · next h => exact absurd (List.cons.inj (hs.symm.trans h)).1 hc
  · rfl

theorem listComma_eq_ok {count : Nat} {s rest : List Char} (h : listComma count s = .ok rest) :
    ∃ middle, Spaced [mark ','] s middle ∧ rest = skip middle := by
  unfold listComma at h
  split at h
  · cases h
  · cases h
  · next cs hs =>
    refine ⟨cs, (spaced_singleton_iff (by decide)).mpr hs, ?_⟩
    split at h
    · cases h
    · cases h
    · exact (Except.ok.inj h).symm
  · cases h

theorem listComma_of_value {count : Nat} {s middle cs : List Char} {c : Char}
    (hs : Spaced [mark ','] s middle) (hmiddle : skip middle = c :: cs) (hc : c ≠ ']') :
    listComma count s = .ok (skip middle) := by
  have hcomma : skip s = ',' :: middle := (spaced_singleton_iff (by decide)).mp hs
  unfold listComma
  split
  · next h => cases hcomma.symm.trans h
  · next h => cases hcomma.symm.trans h
  · next h =>
    cases hcomma.symm.trans h
    split
    · next h => cases hmiddle.symm.trans h
    · next h => exact absurd (List.cons.inj (hmiddle.symm.trans h)).1 hc
    · rfl
  · next h => exact absurd hcomma (h middle)

theorem listEnd_eq_ok_iff {s rest : List Char} :
    listEnd s = .ok rest ↔ Spaced [mark ']'] s rest := by
  rw [mark, spaced_singleton_iff (by decide)]
  unfold listEnd
  split
  · next h =>
    rw [h]
    exact iff_of_false (by simp) (by simp)
  · next cs h => rw [h, Except.ok.injEq, List.cons.injEq, eq_self, true_and]; rfl
  · next h =>
    rw [h]
    refine iff_of_false ?_ (by simp)
    split <;> simp
  · next h _ => exact iff_of_false (by simp) fun hs => h _ hs

theorem spaced_list_iff {first second third : List Token} {s rest : List Char} :
    Spaced (List.intercalate [mark ','] [first, second, third] ++ [mark ']']) s rest ↔
      ∃ s₁ s₂ s₃ s₄ s₅, Spaced first s s₁ ∧ Spaced [mark ','] s₁ s₂ ∧ Spaced second s₂ s₃ ∧
        Spaced [mark ','] s₃ s₄ ∧ Spaced third s₄ s₅ ∧ Spaced [mark ']'] s₅ rest := by
  have htokens : List.intercalate [mark ','] [first, second, third] ++ [mark ']'] =
      first ++ ([mark ','] ++ (second ++ ([mark ','] ++ (third ++ [mark ']'])))) := by
    simp [List.intercalate_cons_cons]
  rw [htokens]
  simp only [spaced_append_iff, exists_and_left]

/-- The reader of a list takes exactly its three values. -/
theorem listValues_eq_ok_iff {s rest : List Char} {map : ModuleMap} {lead : Option String}
    {mode : Option Mode} :
    listValues s = .ok ({ map, lead, mode }, rest) ↔
      ∃ first second third, ValueTokens first (.map map) ∧ ValueTokens second (.lead lead) ∧
        ValueTokens third (.mode mode) ∧
        Spaced (List.intercalate [mark ','] [first, second, third] ++ [mark ']']) s rest := by
  simp only [spaced_list_iff]
  constructor
  · intro h
    obtain ⟨⟨m, s₁⟩, hmap, h⟩ := bind_eq_ok_iff.mp h
    obtain ⟨r₁, hcomma₁, h⟩ := bind_eq_ok_iff.mp h
    obtain ⟨⟨l, s₃⟩, hlead, h⟩ := bind_eq_ok_iff.mp h
    obtain ⟨r₂, hcomma₂, h⟩ := bind_eq_ok_iff.mp h
    obtain ⟨⟨k, s₅⟩, hmode, h⟩ := bind_eq_ok_iff.mp h
    obtain ⟨last, hlast, hend⟩ := bind_eq_ok_iff.mp h
    cases hend
    obtain ⟨s₂, hs₁, rfl⟩ := listComma_eq_ok hcomma₁
    obtain ⟨s₄, hs₃, rfl⟩ := listComma_eq_ok hcomma₂
    rw [orNull_skip] at hlead hmode
    obtain ⟨second, hsecond, hs₂⟩ := leadValue_eq_ok_iff.mp hlead
    obtain ⟨third, hthird, hs₄⟩ := modeValue_eq_ok_iff.mp hmode
    have hs₅ := listEnd_eq_ok_iff.mp hlast
    rcases listMap_eq_ok hmap with hmap | ⟨cs, rfl⟩
    · obtain ⟨first, hfirst, hs⟩ := mapValue_eq_ok_iff.mp hmap
      exact ⟨first, second, third, hfirst, hsecond, hthird, s₁, s₂, s₃, s₄, s₅, hs, hs₁, hs₂, hs₃,
        hs₄, hs₅⟩
    · -- An empty list is given an empty map, but no comma follows it.
      cases (spaced_singleton_iff (by decide)).mp hs₁
  · rintro ⟨first, second, third, hfirst, hsecond, hthird, s₁, s₂, s₃, s₄, s₅, hs, hs₁, hs₂, hs₃,
      hs₄, hs₅⟩
    obtain ⟨c, cs, hskip, hc⟩ := hfirst.skip_eq hs
    obtain ⟨c₂, cs₂, hskip₂, hc₂⟩ := hsecond.skip_eq hs₂
    obtain ⟨c₄, cs₄, hskip₄, hc₄⟩ := hthird.skip_eq hs₄
    have hmap := mapValue_eq_ok_iff.mpr ⟨first, hfirst, hs⟩
    have hlead := leadValue_eq_ok_iff.mpr ⟨second, hsecond, hs₂⟩
    have hmode := modeValue_eq_ok_iff.mpr ⟨third, hthird, hs₄⟩
    refine bind_eq_ok_iff.mpr ⟨_, (listMap_of_value hskip hc).trans hmap, ?_⟩
    refine bind_eq_ok_iff.mpr ⟨_, listComma_of_value hs₁ hskip₂ hc₂, ?_⟩
    refine bind_eq_ok_iff.mpr ⟨_, (orNull_skip _ s₂).trans hlead, ?_⟩
    refine bind_eq_ok_iff.mpr ⟨_, listComma_of_value hs₃ hskip₄ hc₄, ?_⟩
    refine bind_eq_ok_iff.mpr ⟨_, (orNull_skip _ s₄).trans hmode, ?_⟩
    exact bind_eq_ok_iff.mpr ⟨_, listEnd_eq_ok_iff.mpr hs₅, rfl⟩

/-! ## 5. Options -/

theorem options_eq_ok_iff {s rest : List Char} {found : Options} :
    options s = .ok (found, rest) ↔
      ∃ tokens, OptionsTokens tokens found ∧ Spaced tokens s rest := by
  constructor
  · intro h
    unfold options at h
    split at h
    · next cs hskip =>
      obtain ⟨⟨draft, last⟩, hmembers, hend⟩ := bind_eq_ok_iff.mp h
      cases hend
      obtain ⟨tokens, entries, hfound, hopen, rfl, hs⟩ := members_eq_ok_iff.mp hmembers
      rw [Draft.options_foldl]
      exact ⟨_, .object ⟨tokens, hfound, rfl⟩ (Draft.open_nothing_iff.mp hopen),
        (spaced_cons_iff (by decide)).mpr ⟨cs, hskip, hs⟩⟩
    · next cs hskip =>
      obtain ⟨first, second, third, hfirst, hsecond, hthird, hs⟩ := listValues_eq_ok_iff.mp h
      exact ⟨_, .list hfirst hsecond hthird, (spaced_cons_iff (by decide)).mpr ⟨cs, hskip, hs⟩⟩
    · cases h
  · rintro ⟨tokens, htokens, hs⟩
    unfold options
    cases htokens with
    | object hobject hnodup =>
      obtain ⟨found, hfound, rfl⟩ := hobject
      obtain ⟨cs, hskip, hs⟩ := (spaced_cons_iff (by decide)).mp hs
      rw [hskip]
      have hmembers : members true {} cs = .ok (_, rest) := members_eq_ok_iff.mpr
        ⟨found, _, hfound, Draft.open_nothing_iff.mpr hnodup, rfl, hs⟩
      refine bind_eq_ok_iff.mpr ⟨_, hmembers, ?_⟩
      exact congrArg (fun options => Except.ok (options, rest)) (Draft.options_foldl {} _)
    | list hfirst hsecond hthird =>
      obtain ⟨cs, hskip, hs⟩ := (spaced_cons_iff (by decide)).mp hs
      rw [hskip]
      exact listValues_eq_ok_iff.mpr ⟨_, _, _, hfirst, hsecond, hthird, hs⟩

theorem options_skip (s : List Char) : options (skip s) = options s := by
  unfold options
  rw [skip_skip]

theorem options_null {s cs : List Char} {result : Options × List Char} (h : skip s = 'n' :: cs) :
    options s ≠ .ok result := by
  unfold options
  rw [h]
  rintro ⟨⟩

theorem OptionsTokens.not_blank {tokens : List Token} {options : Options}
    (h : OptionsTokens tokens options) {s : List Char} (hs : Written tokens s) :
    Text.isBlank s = false := by
  obtain ⟨rest, hs, _⟩ := hs
  refine Bool.eq_false_iff.mpr fun hblank => ?_
  cases h with
  | object hobject _ =>
    obtain ⟨_, _, rfl⟩ := hobject
    obtain ⟨cs, hskip, _⟩ := (spaced_cons_iff (by decide)).mp hs
    cases Text.isWhite_of_skip hblank hskip
  | list _ _ _ =>
    obtain ⟨cs, hskip, _⟩ := (spaced_cons_iff (by decide)).mp hs
    cases Text.isWhite_of_skip hblank hskip

theorem optionsText_eq_ok_iff {s : List Char} {found : Options} :
    optionsText s = .ok found ↔ OptionsText s found := by
  unfold optionsText
  split
  · next hblank =>
    -- A blank text is answered unread. No other form of options is blank.
    rw [Except.ok.injEq]
    constructor
    · rintro rfl
      exact .blank (Text.trim_eq_nil_iff.mpr hblank)
    · intro h
      cases h with
      | blank => rfl
      | null => rfl
      | written htokens hs => exact absurd hblank (Bool.eq_false_iff.mp (htokens.not_blank hs))
  · next hblank =>
    constructor
    · intro h
      obtain ⟨⟨value, rest⟩, hvalue, h⟩ := bind_eq_ok_iff.mp h
      obtain ⟨_, hfinish, hend⟩ := bind_eq_ok_iff.mp h
      cases hend
      have hrest := finish_eq_ok_iff.mp hfinish
      rcases (orNull_eq_ok_iff options_skip options_null).mp hvalue with
        ⟨rfl, hs⟩ | ⟨options, rfl, hoptions⟩
      · exact .null ⟨rest, hs, hrest⟩
      · obtain ⟨tokens, htokens, hs⟩ := options_eq_ok_iff.mp hoptions
        exact .written htokens ⟨rest, hs, hrest⟩
    · intro h
      have hread : ∃ value rest, orNull options s = .ok (value, rest) ∧ Blanks rest ∧
          value.getD {} = found := by
        simp only [orNull_eq_ok_iff options_skip options_null]
        cases h with
        | blank htrim => exact absurd (Text.trim_eq_nil_iff.mp htrim) hblank
        | null hs =>
          obtain ⟨rest, hs, hrest⟩ := hs
          exact ⟨none, rest, .inl ⟨rfl, hs⟩, hrest, rfl⟩
        | written htokens hs =>
          obtain ⟨rest, hs, hrest⟩ := hs
          exact ⟨some found, rest, .inr ⟨found, rfl, options_eq_ok_iff.mpr ⟨_, htokens, hs⟩⟩,
            hrest, rfl⟩
      obtain ⟨value, rest, hvalue, hrest, hfound⟩ := hread
      refine bind_eq_ok_iff.mpr ⟨_, hvalue, ?_⟩
      exact bind_eq_ok_iff.mpr ⟨_, finish_eq_ok_iff.mpr hrest, congrArg _ hfound⟩

end Config

/-- The loader accepts exactly the texts of the language and gives the options that they stand for.
Every other text is refused as bad options. The module maps in these texts are the ones that can be
loaded by themselves. -/
theorem load_options_iff (source : String) :
    (∀ options, Options.load source = .ok options ↔ Config.OptionsText source.toList options) ∧
    ((∃ detail, Options.load source = .error (.badOptions detail)) ↔
      ¬ ∃ options, Config.OptionsText source.toList options) ∧
    (∀ map, ModuleMap.load source = .ok map ↔
      ∃ tokens, Config.ValueTokens tokens (.map map) ∧ Json.Written tokens source.toList) := by
  have hload : ∀ options,
      Options.load source = .ok options ↔ Config.OptionsText source.toList options :=
    fun options => mapError_eq_ok_iff.trans Config.optionsText_eq_ok_iff
  refine ⟨hload, ?_, ?_⟩
  · simp only [← hload, not_exists]
    exact mapError_eq_error_iff fun fault => ⟨fault.message source.toList, rfl⟩
  · intro map
    simp only [Config.valueTokens_map_iff, load_moduleMap_eq_ok_iff]

example :
    (Options.load "[\x7b\x7d, \"lib/\", \x7b\"test\": null\x7d]").toOption.map
      (fun options => (options.lead, options.mode)) = some (some "lib/", some .test) := by
  decide +kernel

end Retarget
