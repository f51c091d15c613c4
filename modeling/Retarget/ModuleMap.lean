/-!
# Module maps

A module map is an exact-match table from logical module names to the modules that stand in for
them. It keeps one entry a name, in the order in which the names first came in; the order is not
observable, since two maps are equal as soon as they answer every look-up alike.

`get?` is the view of a map; `get?_insert` says what it shows after an entry has been set,
`get?_extend` what it shows after another map has been laid over it, and `insertAll_append` that
entering two lists of pairs is entering the one behind the other.
-/

namespace Retarget

/-! ## Entry lists -/

namespace Entries

/-- The value of the first entry with the given name. -/
def find? (name : String) : List (String × String) → Option String
  | [] => none
  | (key, value) :: rest => if key = name then some value else find? name rest

/-- Replaces the value of an entry in its place, or adds the entry at the end. -/
def put (name target : String) : List (String × String) → List (String × String)
  | [] => [(name, target)]
  | (key, value) :: rest =>
    if key = name then (name, target) :: rest else (key, value) :: put name target rest

theorem mem_keys_put {name target key : String} {entries : List (String × String)} :
    key ∈ (put name target entries).map Prod.fst ↔
      key = name ∨ key ∈ entries.map Prod.fst := by
  induction entries with
  | nil => simp [put]
  | cons entry rest ih =>
    obtain ⟨k, v⟩ := entry
    by_cases h : k = name
    · subst h
      simp [put]
    · simp only [put, h, if_false, List.map_cons, List.mem_cons, ih]
      grind

theorem nodup_put {name target : String} {entries : List (String × String)}
    (h : (entries.map Prod.fst).Nodup) : ((put name target entries).map Prod.fst).Nodup := by
  induction entries with
  | nil => simp [put]
  | cons entry rest ih =>
    obtain ⟨k, v⟩ := entry
    rw [List.map_cons, List.nodup_cons] at h
    by_cases hk : k = name
    · subst hk
      simpa [put] using h
    · simp only [put, hk, if_false, List.map_cons, List.nodup_cons]
      refine ⟨fun hm => ?_, ih h.2⟩
      rcases mem_keys_put.1 hm with hm | hm
      · exact hk hm
      · exact h.1 hm

theorem find?_put {name target key : String} {entries : List (String × String)} :
    find? key (put name target entries) = if key = name then some target else find? key entries := by
  induction entries with
  | nil => simp only [put, find?]; grind
  | cons entry rest ih =>
    obtain ⟨k, v⟩ := entry
    by_cases hk : k = name
    · simp only [put, hk, if_true, find?]; grind
    · simp only [put, hk, if_false, find?, ih]; grind

theorem find?_of_not_mem {name : String} {entries : List (String × String)}
    (h : name ∉ entries.map Prod.fst) : find? name entries = none := by
  induction entries with
  | nil => rfl
  | cons entry rest ih =>
    obtain ⟨k, v⟩ := entry
    rw [List.map_cons, List.mem_cons, not_or] at h
    rw [find?, if_neg (Ne.symm h.1), ih h.2]

end Entries

/-! ## The table -/

/-- An exact-match table of names with their targets. No name has two entries. -/
structure ModuleMap where
  entries : List (String × String)
  nodup : (entries.map Prod.fst).Nodup

namespace ModuleMap

/-- The table without entries. -/
def empty : ModuleMap :=
  ⟨[], List.nodup_nil⟩

instance : Inhabited ModuleMap :=
  ⟨empty⟩

/-- The target of a name, if the table has one. -/
def get? (map : ModuleMap) (name : String) : Option String :=
  Entries.find? name map.entries

/-- Sets the target of a name. -/
def insert (map : ModuleMap) (name target : String) : ModuleMap :=
  ⟨Entries.put name target map.entries, Entries.nodup_put map.nodup⟩

/-- Enters pairs one after the other, so that a later pair replaces an earlier one. -/
def insertAll (map : ModuleMap) (pairs : List (String × String)) : ModuleMap :=
  pairs.foldl (fun m pair => m.insert pair.1 pair.2) map

/-- The table of a list of pairs; of two pairs with one name the later wins. -/
def ofList (pairs : List (String × String)) : ModuleMap :=
  empty.insertAll pairs

/-- Lays another table over this one; the entries of the other win. -/
def extend (map other : ModuleMap) : ModuleMap :=
  map.insertAll other.entries

/-- The number of names with a target. -/
def size (map : ModuleMap) : Nat :=
  map.entries.length

/-- Whether no name has a target. -/
def isEmpty (map : ModuleMap) : Bool :=
  map.entries.isEmpty

/-- Two tables are the same when they have as many names and the second answers each entry of the
first alike. -/
def same (map other : ModuleMap) : Bool :=
  map.size == other.size && map.entries.all fun entry => other.get? entry.1 == some entry.2

instance : BEq ModuleMap :=
  ⟨same⟩

@[simp]
theorem get?_empty (name : String) : empty.get? name = none :=
  rfl

@[simp]
theorem get?_insert (map : ModuleMap) (name target key : String) :
    (map.insert name target).get? key = if key = name then some target else map.get? key :=
  Entries.find?_put

@[simp]
theorem insertAll_nil (map : ModuleMap) : map.insertAll [] = map :=
  rfl

@[simp]
theorem insertAll_cons (map : ModuleMap) (pair : String × String) (pairs : List (String × String)) :
    map.insertAll (pair :: pairs) = (map.insert pair.1 pair.2).insertAll pairs :=
  rfl

theorem insertAll_append (map : ModuleMap) (xs ys : List (String × String)) :
    map.insertAll (xs ++ ys) = (map.insertAll xs).insertAll ys :=
  List.foldl_append

theorem get?_insertAll_of_nodup {pairs : List (String × String)}
    (h : (pairs.map Prod.fst).Nodup) (map : ModuleMap) (name : String) :
    (map.insertAll pairs).get? name = (Entries.find? name pairs).or (map.get? name) := by
  induction pairs generalizing map with
  | nil => rfl
  | cons pair rest ih =>
    obtain ⟨key, target⟩ := pair
    rw [List.map_cons, List.nodup_cons] at h
    rw [insertAll_cons, ih h.2, get?_insert, Entries.find?]
    by_cases hkey : key = name
    · subst hkey
      rw [Entries.find?_of_not_mem h.1, if_pos rfl, if_pos rfl]
      rfl
    · rw [if_neg (Ne.symm hkey), if_neg hkey]

/-- The table that is laid over another one answers first. -/
theorem get?_extend (map other : ModuleMap) (name : String) :
    (map.extend other).get? name = (other.get? name).or (map.get? name) :=
  get?_insertAll_of_nodup other.nodup map name

end ModuleMap

end Retarget
