import Mathlib.Data.Finset.Card
import Mathlib.Data.List.Perm.Subperm
import Retarget.ModuleMap.Edit
import Retarget.Proofs.MapLanguage

/-!
# Layers of a module map

A map is built by laying sources over each other, and it may be begun anew at any time. Only the
pairs of the last beginning and of what has been laid over it since count, one behind the other. They
tell all there is to see of the map: the last pair of a name is its entry.

Results:
1. `get?_eq_some_iff`, `mem_keys_iff`: a map answers with its entries.
2. `beq_iff`: two maps are equal exactly when they answer every look-up alike; `extend_assoc` and
   the other laws of `extend` follow.
3. `get?_next`, `get?_build`: a step keeps a map in agreement with its pairs, and so do all steps.
4. `build_layers`: what there is to see of a map that has been built.
-/

namespace Retarget

namespace ModuleMap

/-! ## Definitions -/

/-- The names with a target. -/
def keys (map : ModuleMap) : List String :=
  map.entries.map Prod.fst

/-- The pairs of a source: those of a list as they stand, and for a text the entries of the map that
it holds. A text that cannot be loaded has none. -/
def Source.pairs? : Source → Option (List (String × String))
  | text source => (ModuleMap.load source).toOption.map entries
  | pairs list => some list

/-- The pairs that count after a step. -/
def Edit.overlay (counting : List (String × String)) : Edit → List (String × String)
  | clear => []
  | replace source => source.pairs?.getD counting
  | extend source => counting ++ source.pairs?.getD []
  | extendSelf => counting

/-- The pairs that count after steps, one after the other: those of the last source that replaced
the map, and behind them those of the sources that have been laid over it since. -/
def layers (edits : List Edit) : List (String × String) :=
  edits.foldl Edit.overlay []

end ModuleMap

/-! ## 1. Entries and answers -/

theorem Entries.find?_eq_some_iff {name target : String} {entries : List (String × String)}
    (h : (entries.map Prod.fst).Nodup) :
    find? name entries = some target ↔ (name, target) ∈ entries := by
  induction entries with
  | nil => simp [find?]
  | cons entry rest ih =>
    obtain ⟨key, value⟩ := entry
    rw [List.map_cons, List.nodup_cons] at h
    rw [find?, List.mem_cons, Prod.mk.injEq]
    by_cases hkey : key = name
    · subst hkey
      have hrest : (key, target) ∉ rest := fun hmem => h.1 (List.mem_map.mpr ⟨_, hmem, rfl⟩)
      rw [if_pos rfl, or_iff_left hrest, Option.some_inj, eq_comm, and_iff_right rfl]
    · rw [if_neg hkey, ih h.2, or_iff_right fun heq => hkey heq.1.symm]

namespace ModuleMap

theorem get?_eq_some_iff {map : ModuleMap} {name target : String} :
    map.get? name = some target ↔ (name, target) ∈ map.entries :=
  Entries.find?_eq_some_iff map.nodup

theorem nodup_keys (map : ModuleMap) : map.keys.Nodup :=
  map.nodup

theorem mem_keys_iff {map : ModuleMap} {name : String} :
    name ∈ map.keys ↔ (map.get? name).isSome = true := by
  rw [keys, List.mem_map, Option.isSome_iff_exists]
  constructor
  · rintro ⟨entry, hentry, rfl⟩
    exact ⟨entry.2, get?_eq_some_iff.mpr hentry⟩
  · rintro ⟨target, htarget⟩
    exact ⟨(name, target), get?_eq_some_iff.mp htarget, rfl⟩

theorem get?_eq_none_iff {map : ModuleMap} {name : String} :
    map.get? name = none ↔ name ∉ map.keys := by
  rw [mem_keys_iff, Option.not_isSome_iff_eq_none]

theorem length_keys (map : ModuleMap) : map.keys.length = map.size :=
  List.length_map _

/-- Each name is counted once, however often it is listed elsewhere. -/
theorem size_eq_card {map : ModuleMap} {names : List String}
    (h : ∀ name, name ∈ map.keys ↔ name ∈ names) : map.size = names.toFinset.card := by
  have hnames : map.keys.toFinset = names.toFinset := by
    ext name
    rw [List.mem_toFinset, List.mem_toFinset, h]
  rw [← hnames, List.toFinset_card_of_nodup map.nodup_keys, length_keys]

/-- A map that has as many names as another one, and no others, has the same names. -/
theorem perm_keys {map other : ModuleMap} (hsize : map.size = other.size)
    (hsubset : map.keys ⊆ other.keys) : map.keys.Perm other.keys := by
  apply (List.subperm_of_subset map.nodup_keys hsubset).perm_of_length_le
  rw [length_keys, length_keys, hsize]

/-! ## 2. Equal maps -/

theorem same_iff {map other : ModuleMap} :
    map.same other = true ↔
      map.size = other.size ∧ ∀ entry ∈ map.entries, other.get? entry.1 = some entry.2 := by
  rw [same, Bool.and_eq_true, beq_iff_eq, List.all_eq_true]
  simp only [beq_iff_eq]

/-- Two maps are equal exactly when they answer every look-up alike. -/
theorem beq_iff {map other : ModuleMap} :
    (map == other) = true ↔ ∀ name, map.get? name = other.get? name := by
  refine same_iff.trans ?_
  constructor
  · rintro ⟨hsize, hentries⟩ name
    have hsubset : map.keys ⊆ other.keys := by
      intro key hkey
      obtain ⟨entry, hentry, rfl⟩ := List.mem_map.mp hkey
      rw [mem_keys_iff, hentries entry hentry]
      rfl
    cases hget : map.get? name with
    | some target => exact (hentries _ (get?_eq_some_iff.mp hget)).symm
    | none =>
      rw [get?_eq_none_iff, (perm_keys hsize hsubset).mem_iff, ← get?_eq_none_iff] at hget
      exact hget.symm
  · intro h
    have hkeys : ∀ name, name ∈ map.keys ↔ name ∈ other.keys := by
      intro name
      rw [mem_keys_iff, mem_keys_iff, h]
    constructor
    · calc map.size
          _ = other.keys.toFinset.card := size_eq_card hkeys
          _ = other.size := (size_eq_card fun _ => Iff.rfl).symm
    · intro entry hentry
      rw [← h, get?_eq_some_iff]
      exact hentry

theorem extend_assoc (bottom middle top : ModuleMap) :
    (bottom.extend middle).extend top == bottom.extend (middle.extend top) := by
  rw [beq_iff]
  intro name
  rw [get?_extend, get?_extend, get?_extend, get?_extend, Option.or_assoc]

theorem empty_extend (map : ModuleMap) : empty.extend map == map := by
  rw [beq_iff]
  intro name
  rw [get?_extend, get?_empty, Option.or_none]

theorem extend_empty (map : ModuleMap) : map.extend empty == map := by
  rw [beq_iff]
  intro name
  rw [get?_extend, get?_empty, Option.none_or]

theorem extend_self (map : ModuleMap) : map.extend map == map := by
  rw [beq_iff]
  intro name
  rw [get?_extend, Option.or_self]

theorem get?_ofList_append (xs ys : List (String × String)) (name : String) :
    (ofList (xs ++ ys)).get? name = ((ofList ys).get? name).or ((ofList xs).get? name) := by
  rw [ofList, insertAll_append, get?_insertAll, get?_ofList ys]
  rfl

theorem ofList_append (xs ys : List (String × String)) :
    ofList (xs ++ ys) == (ofList xs).extend (ofList ys) := by
  rw [beq_iff]
  intro name
  rw [get?_ofList_append, get?_extend]

/-! ## 3. Steps -/

/-- Entering the entries of a map anew gives its answers. -/
theorem get?_ofList_entries (map : ModuleMap) (name : String) :
    (ofList map.entries).get? name = map.get? name :=
  beq_iff.mp (empty_extend map) name

/-- A source cannot be loaded and has no pairs, or it gives a map that answers as its pairs do. -/
theorem Source.load_cases (source : Source) :
    (∃ error, source.load = .error error ∧ source.pairs? = none) ∨
    ∃ map pairs, source.load = .ok map ∧ source.pairs? = some pairs ∧
      ∀ name, map.get? name = (ofList pairs).get? name := by
  cases source with
  | text source =>
    cases hload : ModuleMap.load source with
    | error error => exact .inl ⟨error, hload, by rw [pairs?, hload]; rfl⟩
    | ok map =>
      refine .inr ⟨map, map.entries, hload, by rw [pairs?, hload]; rfl, ?_⟩
      intro name
      exact (get?_ofList_entries map name).symm
  | pairs list => exact .inr ⟨ofList list, list, rfl, rfl, fun _ => rfl⟩

/-- A step keeps a map in agreement with the pairs that count. -/
theorem get?_next {map : ModuleMap} {counting : List (String × String)}
    (h : ∀ name, map.get? name = (ofList counting).get? name) (edit : Edit) (name : String) :
    (edit.next map).get? name = (ofList (edit.overlay counting)).get? name := by
  cases edit with
  | clear => rfl
  | replace source =>
    obtain ⟨error, hload, hpairs⟩ | ⟨found, pairs, hload, hpairs, hfound⟩ := source.load_cases
    · rw [Edit.next, Edit.apply, hload, Edit.overlay, hpairs]
      exact h name
    · rw [Edit.next, Edit.apply, hload, Edit.overlay, hpairs]
      exact hfound name
  | extend source =>
    obtain ⟨error, hload, hpairs⟩ | ⟨found, pairs, hload, hpairs, hfound⟩ := source.load_cases
    · rw [Edit.next, Edit.apply, hload, Edit.overlay, hpairs, Option.getD_none, List.append_nil]
      exact h name
    · rw [Edit.next, Edit.apply, hload, Edit.overlay, hpairs, Option.getD_some,
        get?_ofList_append, ← hfound, ← h]
      exact get?_extend map found name
  | extendSelf => exact (beq_iff.mp (extend_self map) name).trans (h name)

/-- A map that has been built answers as the pairs that count. -/
theorem get?_build (edits : List Edit) (name : String) :
    (build edits).get? name = (ofList (layers edits)).get? name := by
  suffices hrun : ∀ (map : ModuleMap) (counting : List (String × String)),
      (∀ name, map.get? name = (ofList counting).get? name) →
      (edits.foldl Edit.next map).get? name =
        (ofList (edits.foldl Edit.overlay counting)).get? name by
    exact hrun empty [] fun _ => rfl
  induction edits with
  | nil => exact fun _ _ h => h name
  | cons edit rest ih => exact fun _ _ h => ih _ _ (get?_next h edit)

theorem mem_keys_build {edits : List Edit} {name : String} :
    name ∈ (build edits).keys ↔ name ∈ (layers edits).map Prod.fst := by
  rw [mem_keys_iff, get?_build, get?_ofList, Option.isSome_map, List.find?_isSome]
  simp only [List.mem_reverse, decide_eq_true_eq, List.mem_map]

/-! ## 4. What there is to see -/

/-- After any steps a map answers with the last of the pairs that count, it has as many entries as
there are names in these, it is empty exactly if there are none, and it is equal to just those maps
that answer alike. Laying maps over each other is associative, the empty map changes nothing and is
changed into what is laid over it, a map over itself is that map, and the map of two lists of pairs
one behind the other is that of the first with that of the second laid over it. -/
theorem build_layers (edits : List Edit) :
    (∀ name, (build edits).get? name =
      ((layers edits).reverse.find? fun pair => pair.1 = name).map Prod.snd) ∧
    (build edits).size = ((layers edits).map Prod.fst).toFinset.card ∧
    ((build edits).isEmpty = true ↔ layers edits = []) ∧
    (∀ other : ModuleMap, (build edits == other) = true ↔
      ∀ name, (build edits).get? name = other.get? name) ∧
    (∀ bottom middle top : ModuleMap,
      (bottom.extend middle).extend top == bottom.extend (middle.extend top)) ∧
    (∀ map : ModuleMap,
      empty.extend map == map ∧ map.extend empty == map ∧ map.extend map == map) ∧
    ∀ xs ys : List (String × String), ofList (xs ++ ys) == (ofList xs).extend (ofList ys) := by
  have hsize : (build edits).size = ((layers edits).map Prod.fst).toFinset.card :=
    size_eq_card fun _ => mem_keys_build
  refine ⟨?_, hsize, ?_, fun _ => beq_iff, extend_assoc, ?_, ofList_append⟩
  · intro name
    rw [get?_build, get?_ofList]
  · rw [isEmpty, List.isEmpty_iff_length_eq_zero]
    show (build edits).size = 0 ↔ _
    rw [hsize, Finset.card_eq_zero, List.toFinset_eq_empty_iff, List.map_eq_nil_iff]
  · exact fun map => ⟨empty_extend map, extend_empty map, extend_self map⟩

example :
    let map := build [.extend (.pairs [("x", "1")]),
      .replace (.pairs [("a", "1"), ("b", "2"), ("a", "3")]),
      .extend (.pairs [("b", "4"), ("c", "5")]), .extendSelf]
    ["x", "a", "b", "c"].map map.get? = [none, some "3", some "4", some "5"] ∧ map.size = 3 := by
  decide

end ModuleMap

end Retarget
