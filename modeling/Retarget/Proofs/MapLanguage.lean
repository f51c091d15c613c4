import Mathlib.Data.List.Forall2
import Retarget.Config.Load
import Retarget.Proofs.Token

/-!
# The language of module maps

A module map is written as an object whose members have a string literal as their key and another
one as their value. This is the whole language: the loader accepts exactly these texts, and the map
that it gives is the one of the members in their order, of which the later of two with one key wins.

Results:
1. `memberTokens_cons`: the members of any object are read one by one, the first without a comma.
2. `pairs_eq_ok_iff`, `moduleMap_eq_ok_iff`: the reader of a map takes exactly a map.
3. `get?_ofList`: the map of a list of pairs answers with the last pair.
4. `trim_eq_nil_iff`: a text is blank when nothing of it is left after trimming.
5. `load_moduleMap_iff`: the loader accepts exactly the texts of the language.
-/

namespace Retarget

/-! ## Definitions -/

namespace Text

/-- The code points of the white-space characters, in the wide sense. -/
def whiteSpace : List Nat :=
  [0x9, 0xA, 0xB, 0xC, 0xD, 0x20, 0x85, 0xA0, 0x1680, 0x2000, 0x2001, 0x2002, 0x2003, 0x2004,
    0x2005, 0x2006, 0x2007, 0x2008, 0x2009, 0x200A, 0x2028, 0x2029, 0x202F, 0x205F, 0x3000]

/-- A text without the white space at both ends. -/
def trim (s : List Char) : List Char :=
  (s.dropWhile fun c => c.toNat ∈ whiteSpace).rdropWhile fun c => c.toNat ∈ whiteSpace

end Text

namespace Json

/-- `Object Member tokens found`: the tokens are members between braces, with a comma between
neighbours, and what the members stand for is found in the same order. -/
def Object {α : Type} (Member : List Token → α → Prop) (tokens : List Token) (found : List α) :
    Prop :=
  ∃ members, List.Forall₂ Member members found ∧
    tokens = mark '\x7b' :: (List.intercalate [mark ','] members ++ [mark '\x7d'])

/-- The tokens of members: those behind the opening brace, or those behind another member. -/
def memberTokens : Bool → List (List Token) → List Token
  | true, members => List.intercalate [mark ','] members
  | false, members => members.flatMap (mark ',' :: ·)

end Json

namespace Config

open Json

/-- A member of a module map: the literal of a name, a colon, and the literal of its target. -/
inductive Pair : List Token → String × String → Prop
  | entry {t u : Token} {name target : String} :
      Literal t name → Literal u target → Pair [t, mark ':', u] (name, target)

/-- The tokens of a module map. -/
def MapTokens (tokens : List Token) (map : ModuleMap) : Prop :=
  ∃ pairs, Object Pair tokens pairs ∧ map = .ofList pairs

end Config

/-! ## 1. Members one by one -/

namespace Json

theorem intercalate_cons (sep member : List Token) (members : List (List Token)) :
    List.intercalate sep (member :: members) = member ++ members.flatMap (sep ++ ·) := by
  induction members generalizing member with
  | nil => rw [List.intercalate_singleton, List.flatMap_nil, List.append_nil]
  | cons next more ih =>
    rw [List.intercalate_cons_cons, ih, List.flatMap_cons, List.append_assoc, List.append_assoc]

theorem memberTokens_cons (first : Bool) (member : List Token) (members : List (List Token)) :
    memberTokens first (member :: members) =
      separator first ++ (member ++ memberTokens false members) := by
  cases first with
  | true => exact intercalate_cons [mark ','] member members
  | false => rfl

theorem memberTokens_nil (first : Bool) : memberTokens first [] = [] := by
  cases first <;> rfl

/-- A text goes on with a member when it goes on with its key, with what stands behind the key, and
with the other members. -/
theorem spaced_memberTokens_cons_iff {first : Bool} {t : Token} {behind ending : List Token}
    {members : List (List Token)} {s rest : List Char} :
    Spaced (memberTokens first ((t :: behind) :: members) ++ ending) s rest ↔
      ∃ s₁ s₂, Spaced (separator first ++ [t]) s s₁ ∧ Spaced behind s₁ s₂ ∧
        Spaced (memberTokens false members ++ ending) s₂ rest := by
  have htokens : memberTokens first ((t :: behind) :: members) ++ ending =
      (separator first ++ [t]) ++ (behind ++ (memberTokens false members ++ ending)) := by
    rw [memberTokens_cons]
    simp only [List.append_assoc, List.cons_append, List.nil_append]
  rw [htokens, spaced_append_iff]
  simp only [spaced_append_iff, exists_and_left]

end Json

/-! ## 2. Maps -/

namespace Config

open Json

theorem target_eq_ok_iff {s rest : List Char} {value : String} :
    target s = .ok (value, rest) ↔ ∃ u, Literal u value ∧ Spaced [mark ':', u] s rest := by
  constructor
  · intro h
    obtain ⟨middle, hcolon, htext⟩ := bind_eq_ok_iff.mp h
    obtain ⟨u, hu, hs⟩ := text_eq_ok_iff.mp htext
    exact ⟨u, hu, spaced_append_iff.mpr ⟨middle, colon_eq_ok_iff.mp hcolon, hs⟩⟩
  · rintro ⟨u, hu, hs⟩
    obtain ⟨middle, hcolon, hs⟩ := (@spaced_append_iff [mark ':'] [u] s rest).mp hs
    exact bind_eq_ok_iff.mpr
      ⟨middle, colon_eq_ok_iff.mpr hcolon, text_eq_ok_iff.mpr ⟨u, hu, hs⟩⟩

theorem pairs_of_none {first : Bool} {s rest : List Char} (h : key first s = .ok (none, rest)) :
    pairs first s = .ok ([], rest) := by
  unfold pairs
  split
  · next hfault => cases h.symm.trans hfault
  · next hnone =>
    cases h.symm.trans hnone
    rfl
  · next hsome => cases h.symm.trans hsome

theorem pairs_of_some {first : Bool} {s rest last rest' : List Char} {name value : String}
    {more : List (String × String)} (hkey : key first s = .ok (some name, rest))
    (htarget : target rest = .ok (value, rest')) (hmore : pairs false rest' = .ok (more, last)) :
    pairs first s = .ok ((name, value) :: more, last) := by
  unfold pairs
  split
  · next hfault => cases hkey.symm.trans hfault
  · next hnone => cases hkey.symm.trans hnone
  · next hsome =>
    cases hkey.symm.trans hsome
    split
    · next hfault => cases htarget.symm.trans hfault
    · next hvalue =>
      cases htarget.symm.trans hvalue
      exact bind_eq_ok_iff.mpr ⟨_, hmore, rfl⟩

theorem pairs_eq_ok_iff {first : Bool} {s rest : List Char} {found : List (String × String)} :
    pairs first s = .ok (found, rest) ↔
      ∃ members, List.Forall₂ Pair members found ∧
        Spaced (memberTokens first members ++ [mark '\x7d']) s rest := by
  constructor
  · intro h
    -- Along the reader: each turn has taken one member, and the rest of the text is shorter.
    fun_induction pairs first s generalizing found rest with
    | case1 => cases h
    | case2 first s last hnone =>
      cases h
      refine ⟨[], .nil, ?_⟩
      rw [memberTokens_nil]
      exact key_eq_ok_none_iff.mp hnone
    | case3 => cases h
    | case4 first s name middle hkey value last htarget ih =>
      obtain ⟨⟨more, _⟩, hmore, hend⟩ := bind_eq_ok_iff.mp h
      cases hend
      obtain ⟨t, ht, hs⟩ := key_eq_ok_some_iff.mp hkey
      obtain ⟨u, hu, hmiddle⟩ := target_eq_ok_iff.mp htarget
      obtain ⟨members, hmembers, hlast⟩ := ih hmore
      exact ⟨[t, mark ':', u] :: members, .cons (.entry ht hu) hmembers,
        spaced_memberTokens_cons_iff.mpr ⟨middle, last, hs, hmiddle, hlast⟩⟩
  · rintro ⟨members, hmembers, hs⟩
    induction hmembers generalizing first s with
    | nil =>
      rw [memberTokens_nil] at hs
      exact pairs_of_none (key_eq_ok_none_iff.mpr hs)
    | cons hmember _ ih =>
      cases hmember with
      | entry ht hu =>
        obtain ⟨s₁, s₂, hs, hmiddle, hlast⟩ := spaced_memberTokens_cons_iff.mp hs
        exact pairs_of_some (key_eq_ok_some_iff.mpr ⟨_, ht, hs⟩)
          (target_eq_ok_iff.mpr ⟨_, hu, hmiddle⟩) (ih hlast)

theorem moduleMap_eq_ok_iff {s rest : List Char} {map : ModuleMap} :
    moduleMap s = .ok (map, rest) ↔ ∃ tokens, MapTokens tokens map ∧ Spaced tokens s rest := by
  constructor
  · intro h
    unfold moduleMap at h
    split at h
    · next cs hskip =>
      obtain ⟨⟨found, last⟩, hpairs, hend⟩ := bind_eq_ok_iff.mp h
      cases hend
      obtain ⟨members, hmembers, hs⟩ := pairs_eq_ok_iff.mp hpairs
      exact ⟨_, ⟨found, ⟨members, hmembers, rfl⟩, rfl⟩,
        (spaced_cons_iff (by decide)).mpr ⟨cs, hskip, hs⟩⟩
    · cases h
  · rintro ⟨tokens, ⟨found, ⟨members, hmembers, rfl⟩, rfl⟩, hs⟩
    obtain ⟨cs, hskip, hs⟩ := (spaced_cons_iff (by decide)).mp hs
    have hpairs : pairs true cs = .ok (found, rest) := pairs_eq_ok_iff.mpr ⟨members, hmembers, hs⟩
    unfold moduleMap
    rw [hskip]
    exact bind_eq_ok_iff.mpr ⟨_, hpairs, rfl⟩

theorem moduleMapText_eq_ok_iff {s : List Char} {map : ModuleMap} :
    moduleMapText s = .ok map ↔ ∃ tokens, MapTokens tokens map ∧ Written tokens s := by
  constructor
  · intro h
    obtain ⟨⟨found, rest⟩, hmap, h⟩ := bind_eq_ok_iff.mp h
    obtain ⟨_, hfinish, hend⟩ := bind_eq_ok_iff.mp h
    cases hend
    obtain ⟨tokens, htokens, hs⟩ := moduleMap_eq_ok_iff.mp hmap
    exact ⟨tokens, htokens, rest, hs, finish_eq_ok_iff.mp hfinish⟩
  · rintro ⟨tokens, htokens, rest, hs, hrest⟩
    refine bind_eq_ok_iff.mpr ⟨_, moduleMap_eq_ok_iff.mpr ⟨tokens, htokens, hs⟩, ?_⟩
    exact bind_eq_ok_iff.mpr ⟨_, finish_eq_ok_iff.mpr hrest, rfl⟩

end Config

/-! ## 3. The last pair wins -/

namespace ModuleMap

theorem get?_insertAll (map : ModuleMap) (pairs : List (String × String)) (name : String) :
    (map.insertAll pairs).get? name =
      ((pairs.reverse.find? fun pair => pair.1 = name).map Prod.snd).or (map.get? name) := by
  induction pairs generalizing map with
  | nil => rfl
  | cons pair rest ih =>
    rw [insertAll_cons, ih, get?_insert, List.reverse_cons, List.find?_append]
    cases rest.reverse.find? fun pair => pair.1 = name with
    | some found => rfl
    | none =>
      rw [Option.none_or, Option.map_none, Option.none_or]
      by_cases h : pair.1 = name
      · rw [if_pos h.symm, List.find?_cons_of_pos (by simpa using h)]
        rfl
      · rw [if_neg (Ne.symm h), List.find?_cons_of_neg (by simpa using h)]
        rfl

/-- The map of a list of pairs answers with the last pair of a name. -/
theorem get?_ofList (pairs : List (String × String)) (name : String) :
    (ofList pairs).get? name = (pairs.reverse.find? fun pair => pair.1 = name).map Prod.snd := by
  rw [ofList, get?_insertAll, get?_empty, Option.or_none]

end ModuleMap

/-! ## 4. Blank texts -/

namespace Text

theorem exists_range_of_inRanges {ranges : List (Nat × Nat)} {code : Nat}
    (h : inRanges ranges code = true) : ∃ range ∈ ranges, range.1 ≤ code ∧ code ≤ range.2 := by
  fun_induction inRanges ranges code with
  | case1 => cases h
  | case2 => cases h
  | case3 low high rest code hlow ih =>
    rcases Bool.or_eq_true_iff.mp h with hhigh | hrest
    · exact ⟨_, List.mem_cons_self, Nat.le_of_not_lt hlow, of_decide_eq_true hhigh⟩
    · obtain ⟨range, hrange, hcode⟩ := ih hrest
      exact ⟨range, List.mem_cons_of_mem _ hrange, hcode⟩

theorem isWhite_iff {c : Char} : isWhite c = true ↔ c.toNat ∈ whiteSpace := by
  -- Both ways there is only a finite table to go through.
  have hsound : ∀ range ∈ whiteRanges,
      ∀ code ∈ List.range' range.1 (range.2 + 1 - range.1), code ∈ whiteSpace := by
    decide
  have hcomplete : ∀ code ∈ whiteSpace, inRanges whiteRanges code = true := by
    decide
  constructor
  · intro h
    obtain ⟨range, hrange, hlow, hhigh⟩ := exists_range_of_inRanges h
    exact hsound range hrange c.toNat (List.mem_range'_1.mpr ⟨hlow, by omega⟩)
  · exact hcomplete c.toNat

/-- A text is blank when nothing of it is left after trimming. -/
theorem trim_eq_nil_iff {s : List Char} : trim s = [] ↔ isBlank s = true := by
  unfold trim isBlank
  rw [List.rdropWhile_eq_nil_iff, ← List.dropWhile_eq_nil_iff, List.dropWhile_idempotent _ s,
    List.dropWhile_eq_nil_iff, List.all_eq_true]
  simp only [decide_eq_true_eq, isWhite_iff]

theorem isWhite_of_skip {s cs : List Char} {c : Char} (hblank : isBlank s = true)
    (h : Json.skip s = c :: cs) : isWhite c = true := by
  have hsuffix : c :: cs <:+ s := h ▸ List.dropWhile_suffix Json.isSpace
  exact List.all_eq_true.mp hblank c (hsuffix.subset List.mem_cons_self)

end Text

/-! ## 5. Loading -/

theorem mapError_eq_ok_iff {ε δ α : Type} {f : ε → δ} {result : Except ε α} {a : α} :
    result.mapError f = .ok a ↔ result = .ok a := by
  cases result with
  | error e => exact iff_of_false (by simp [Except.mapError]) (by simp)
  | ok b => exact ⟨fun h => congrArg _ (Except.ok.inj h), fun h => congrArg _ (Except.ok.inj h)⟩

theorem mapError_eq_error_iff {ε δ ι α : Type} {f : ε → δ} {g : ι → δ} {result : Except ε α}
    (hf : ∀ e, ∃ i, f e = g i) :
    (∃ i, result.mapError f = .error (g i)) ↔ ∀ a, result.mapError f ≠ .ok a := by
  cases result with
  | error e =>
    obtain ⟨i, hi⟩ := hf e
    exact iff_of_true ⟨i, congrArg Except.error hi⟩ (by simp [Except.mapError])
  | ok a => exact iff_of_false (by simp [Except.mapError]) fun h => h a rfl

theorem load_moduleMap_eq_ok_iff {source : String} {map : ModuleMap} :
    ModuleMap.load source = .ok map ↔
      ∃ tokens, Config.MapTokens tokens map ∧ Json.Written tokens source.toList :=
  mapError_eq_ok_iff.trans Config.moduleMapText_eq_ok_iff

theorem load_moduleMap_eq_error_iff {source : String} :
    (∃ detail, ModuleMap.load source = .error (.badModuleMap detail)) ↔
      ∀ map, ModuleMap.load source ≠ .ok map :=
  mapError_eq_error_iff fun fault => ⟨fault.message source.toList, rfl⟩

/-- The first token of a map is its opening brace. -/
theorem skip_of_load_moduleMap {source : String} {map : ModuleMap}
    (h : ModuleMap.load source = .ok map) : ∃ cs, Json.skip source.toList = '\x7b' :: cs := by
  obtain ⟨_, ⟨_, ⟨_, _, rfl⟩, _⟩, _, hs, _⟩ := load_moduleMap_eq_ok_iff.mp h
  obtain ⟨cs, hskip, _⟩ := (Json.spaced_cons_iff (by decide)).mp hs
  exact ⟨cs, hskip⟩

/-- The loader accepts exactly the texts of flat objects from names to targets, with blanks between
the tokens, and gives the map of their members, in which the last member with a name counts. Every
other text is refused as a bad module map, blank texts and `null` among them. -/
theorem load_moduleMap_iff (source : String) :
    (∀ map, ModuleMap.load source = .ok map ↔
      ∃ tokens pairs, Json.Object Config.Pair tokens pairs ∧ Json.Written tokens source.toList ∧
        map = .ofList pairs) ∧
    (∀ (pairs : List (String × String)) (name : String),
      (ModuleMap.ofList pairs).get? name =
        (pairs.reverse.find? fun pair => pair.1 = name).map Prod.snd) ∧
    ((∃ detail, ModuleMap.load source = .error (.badModuleMap detail)) ↔
      ¬ ∃ tokens pairs, Json.Object Config.Pair tokens pairs ∧
        Json.Written tokens source.toList) ∧
    (Text.trim source.toList = [] ∨ Json.Written [Json.nullWord] source.toList →
      ∃ detail, ModuleMap.load source = .error (.badModuleMap detail)) := by
  have hload : ∀ map, ModuleMap.load source = .ok map ↔
      ∃ tokens pairs, Json.Object Config.Pair tokens pairs ∧ Json.Written tokens source.toList ∧
        map = .ofList pairs := by
    intro map
    rw [load_moduleMap_eq_ok_iff]
    constructor
    · rintro ⟨tokens, ⟨pairs, hobject, hmap⟩, hs⟩
      exact ⟨tokens, pairs, hobject, hs, hmap⟩
    · rintro ⟨tokens, pairs, hobject, hs, hmap⟩
      exact ⟨tokens, ⟨pairs, hobject, hmap⟩, hs⟩
  refine ⟨hload, ModuleMap.get?_ofList, ?_, ?_⟩
  · rw [load_moduleMap_eq_error_iff]
    constructor
    · rintro h ⟨tokens, pairs, hobject, hs⟩
      exact h _ ((hload _).mpr ⟨tokens, pairs, hobject, hs, rfl⟩)
    · intro h map hmap
      obtain ⟨tokens, pairs, hobject, hs, _⟩ := (hload map).mp hmap
      exact h ⟨tokens, pairs, hobject, hs⟩
  · intro h
    rw [load_moduleMap_eq_error_iff]
    intro map hmap
    obtain ⟨cs, hskip⟩ := skip_of_load_moduleMap hmap
    rcases h with htrim | ⟨_, hnull, _⟩
    · cases Text.isWhite_of_skip (Text.trim_eq_nil_iff.mp htrim) hskip
    · have hword := (Json.spaced_singleton_iff (by decide)).mp hnull
      cases hskip.symm.trans hword

theorem load_moduleMap_blank :
    Text.trim "\n\u2003".toList = [] ∧
      ∃ detail, ModuleMap.load "\n\u2003" = .error (.badModuleMap detail) := by
  have htrim : Text.trim "\n\u2003".toList = [] := by decide
  exact ⟨htrim, (load_moduleMap_iff "\n\u2003").2.2.2 (.inl htrim)⟩

example :
    ((ModuleMap.load "\x7b \"a\" : \"b\", \"\\u0061\":\"\\ud83d\\ude00/\" \x7d").toOption.bind
      (·.get? "a")) = some "😀/" := by
  decide +kernel

end Retarget
