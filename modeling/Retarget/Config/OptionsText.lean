import Retarget.Config.MapText
import Retarget.Settings
import Retarget.Text.Blank

/-!
# Options as texts

Options are written as a JSON object with the members `moduleMap`, `modulePrefix` and `mode`, each
at most once and in any order; as the list of these three values in this order; or as `null` or a
blank text, which leave everything at its default.

An object is read into a `Draft`, which knows for each member whether it has been seen.
-/

namespace Retarget.Config

open Json

/-! ## The mode -/

/-- Reads the word for a mode. -/
def variant (s : List Char) : Reading (Mode × List Char) := do
  let (name, rest) ← text .variant s
  match Mode.ofName? name with
  | some mode => .ok (mode, rest)
  | none => .error (.behind (.unknownVariant name) rest)

/-- Reads the closing brace behind a mode. -/
def closeVariant (s : List Char) : Reading (List Char) :=
  match skip s with
  | '\x7d' :: cs => .ok cs
  | [] => .error (.behind .endInObject [])
  | rest => .error (.behind .noValue rest)

/-- Reads a mode that is written as an object with one member, whose value is `null`, behind the
opening brace. -/
def variantMember (s : List Char) : Reading (Mode × List Char) := do
  let (mode, s) ← variant s
  let s ← colon s
  let s ← unit s
  let s ← closeVariant s
  return (mode, s)

/-- Reads a mode. -/
def mode (s : List Char) : Reading (Mode × List Char) :=
  match skip s with
  | [] => .error (.next .endInValue [])
  | '"' :: cs => variant ('"' :: cs)
  | '\x7b' :: cs => variantMember cs
  | rest => .error (.next .noValue rest)

/-! ## The object form -/

/-- The members of an options object. -/
inductive Field where
  | map
  | lead
  | mode
deriving DecidableEq, Repr

namespace Field

/-- The key of a member. -/
def name : Field → String
  | map => "moduleMap"
  | lead => "modulePrefix"
  | mode => "mode"

/-- The member of a key. -/
def ofName? (key : String) : Option Field :=
  [map, lead, mode].find? fun field => field.name = key

end Field

/-- What has been read of an options object so far: `none` for a member that has not been seen. A
lead or a mode that has been seen may be `null`, which sets none. -/
structure Draft where
  map : Option ModuleMap := none
  lead : Option (Option String) := none
  mode : Option (Option Mode) := none

namespace Draft

/-- Whether a member has been seen. -/
def has (draft : Draft) : Field → Bool
  | .map => draft.map.isSome
  | .lead => draft.lead.isSome
  | .mode => draft.mode.isSome

/-- The options that a draft stands for: what has not been seen keeps its default. -/
def options (draft : Draft) : Options where
  map := draft.map.getD .empty
  lead := draft.lead.getD none
  mode := draft.mode.getD none

end Draft

/-- The place of a fault in a key: behind the closing brace, if that is what follows. -/
def behindKey (s : List Char) : List Char :=
  match skip s with
  | '\x7d' :: cs => cs
  | rest => rest

/-- Reads the value of a member into the draft. -/
def fieldValue (draft : Draft) (field : Field) (s : List Char) : Reading (Draft × List Char) :=
  match field with
  | .map => do
    let (map, rest) ← moduleMap s
    return ({ draft with map := some map }, rest)
  | .lead => do
    let (lead, rest) ← orNull (text .text) s
    return ({ draft with lead := some lead }, rest)
  | .mode => do
    let (mode, rest) ← orNull mode s
    return ({ draft with mode := some mode }, rest)

/-- Reads a member behind its key. Unknown keys and keys seen before are faults. -/
def member (draft : Draft) (name : String) (s : List Char) : Reading (Draft × List Char) :=
  match Field.ofName? name with
  | none => .error (.behind (.unknownField name) (behindKey s))
  | some field =>
    if draft.has field then .error (.behind (.duplicateField name) (behindKey s))
    else do fieldValue draft field (← colon s)

theorem length_variant_lt {s rest : List Char} {m : Mode} (h : variant s = .ok (m, rest)) :
    rest.length < s.length := by
  obtain ⟨⟨name, last⟩, htext, h⟩ := bind_eq_ok_iff.1 h
  dsimp only at h
  split at h
  · cases h
    exact length_text_lt htext
  · simp at h

theorem length_closeVariant_le {s rest : List Char} (h : closeVariant s = .ok rest) :
    rest.length ≤ s.length := by
  unfold closeVariant at h
  have hle := length_skip_le s
  split at h
  · rename_i hs
    rw [hs, List.length_cons] at hle
    cases h
    omega
  · simp at h
  · simp at h

theorem length_variantMember_le {s rest : List Char} {m : Mode}
    (h : variantMember s = .ok (m, rest)) : rest.length ≤ s.length := by
  obtain ⟨⟨mode, s₁⟩, h₁, h⟩ := bind_eq_ok_iff.1 h
  obtain ⟨s₂, h₂, h⟩ := bind_eq_ok_iff.1 h
  obtain ⟨s₃, h₃, h⟩ := bind_eq_ok_iff.1 h
  obtain ⟨s₄, h₄, h⟩ := bind_eq_ok_iff.1 h
  cases h
  have l₁ := length_variant_lt h₁
  have l₂ := length_colon_lt h₂
  have l₃ := length_unit_le h₃
  have l₄ := length_closeVariant_le h₄
  omega

theorem length_mode_le {s rest : List Char} {m : Mode} (h : mode s = .ok (m, rest)) :
    rest.length ≤ s.length := by
  unfold mode at h
  have hle := length_skip_le s
  split at h
  · simp at h
  · rename_i hs
    rw [hs] at hle
    exact Nat.le_trans (Nat.le_of_lt (length_variant_lt h)) hle
  · rename_i hs
    rw [hs, List.length_cons] at hle
    have := length_variantMember_le h
    omega
  · simp at h

theorem length_fieldValue_le {draft draft' : Draft} {field : Field} {s rest : List Char}
    (h : fieldValue draft field s = .ok (draft', rest)) : rest.length ≤ s.length := by
  cases field with
  | map =>
    obtain ⟨⟨map, last⟩, h₁, h⟩ := bind_eq_ok_iff.1 h
    cases h
    exact Nat.le_of_lt (length_moduleMap_lt h₁)
  | lead =>
    obtain ⟨⟨lead, last⟩, h₁, h⟩ := bind_eq_ok_iff.1 h
    cases h
    exact length_orNull_le (fun ht => Nat.le_of_lt (length_text_lt ht)) h₁
  | mode =>
    obtain ⟨⟨mode, last⟩, h₁, h⟩ := bind_eq_ok_iff.1 h
    cases h
    exact length_orNull_le length_mode_le h₁

theorem length_member_lt {draft draft' : Draft} {name : String} {s rest : List Char}
    (h : member draft name s = .ok (draft', rest)) : rest.length < s.length := by
  unfold member at h
  split at h
  · simp at h
  · split at h
    · simp at h
    · obtain ⟨s₁, h₁, h⟩ := bind_eq_ok_iff.1 h
      exact Nat.lt_of_le_of_lt (length_fieldValue_le h) (length_colon_lt h₁)

/-- Reads the members of an options object behind its opening brace, or behind a member. -/
def members (first : Bool) (draft : Draft) (s : List Char) : Reading (Draft × List Char) :=
  match _hkey : key first s with
  | .error fault => .error fault
  | .ok (none, rest) => .ok (draft, rest)
  | .ok (some name, rest) =>
    match _hmember : member draft name rest with
    | .error fault => .error fault
    | .ok (draft, rest) => members false draft rest
termination_by s.length
decreasing_by exact Nat.lt_trans (length_member_lt _hmember) (length_key_lt _hkey)

/-! ## The list form -/

/-- Reads the first value of a list; a list that is already at its end leaves the map empty. -/
def listMap (s : List Char) : Reading (ModuleMap × List Char) :=
  match skip s with
  | [] => .error (.next .endInList [])
  | ']' :: cs => .ok (.empty, ']' :: cs)
  | rest => moduleMap rest

/-- Reads the comma before the value with the given number, counted from zero. -/
def listComma (count : Nat) (s : List Char) : Reading (List Char) :=
  match skip s with
  | [] => .error (.next .endInList [])
  | ']' :: cs => .error (.behind (.wrongLength count) cs)
  | ',' :: cs =>
    match skip cs with
    | [] => .error (.next .endInValue [])
    | ']' :: ds => .error (.next .trailingComma (']' :: ds))
    | rest => .ok rest
  | rest => .error (.next .noCommaInList rest)

/-- Reads the closing bracket. -/
def listEnd (s : List Char) : Reading (List Char) :=
  match skip s with
  | [] => .error (.next .endInList [])
  | ']' :: cs => .ok cs
  | ',' :: cs =>
    match skip cs with
    | ']' :: ds => .error (.next .trailingComma (']' :: ds))
    | rest => .error (.next .trailingCharacters rest)
  | rest => .error (.next .trailingCharacters rest)

/-- Reads options that are written as a list, behind the opening bracket. -/
def listValues (s : List Char) : Reading (Options × List Char) := do
  let (map, s) ← listMap s
  let s ← listComma 1 s
  let (lead, s) ← orNull (text .text) s
  let s ← listComma 2 s
  let (mode, s) ← orNull mode s
  let s ← listEnd s
  return ({ map, lead, mode }, s)

/-! ## Options -/

/-- Reads options in either form. -/
def options (s : List Char) : Reading (Options × List Char) :=
  match skip s with
  | '\x7b' :: cs => do
    let (draft, rest) ← members true {} cs
    return (draft.options, rest)
  | '[' :: cs => listValues cs
  | rest => .error (mismatch .options rest)

/-- Reads a text that holds options and nothing else. A blank text and `null` are the defaults. -/
def optionsText (s : List Char) : Reading Options :=
  if Text.isBlank s then .ok {}
  else do
    let (found, rest) ← orNull options s
    finish rest
    return found.getD {}

end Retarget.Config
