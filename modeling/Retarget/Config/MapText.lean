import Retarget.Json.Value
import Retarget.ModuleMap

/-!
# Module maps as texts

A module map is written as one flat JSON object from names to targets. `pairs` reads its members in
the order in which they stand; the map keeps the later of two members with one name.
-/

namespace Retarget.Config

open Json

/-- Reads the colon and the value of a member. -/
def target (s : List Char) : Reading (String × List Char) := do
  text .text (← colon s)

theorem length_target_lt {s rest : List Char} {t : String} (h : target s = .ok (t, rest)) :
    rest.length < s.length := by
  obtain ⟨s₁, h₁, h⟩ := bind_eq_ok_iff.1 h
  exact Nat.lt_trans (length_text_lt h) (length_colon_lt h₁)

/-- Reads the members of a flat object behind its opening brace, or behind a member. -/
def pairs (first : Bool) (s : List Char) : Reading (List (String × String) × List Char) :=
  match _hkey : key first s with
  | .error fault => .error fault
  | .ok (none, rest) => .ok ([], rest)
  | .ok (some name, rest) =>
    match _htarget : target rest with
    | .error fault => .error fault
    | .ok (value, rest) => do
      let (more, last) ← pairs false rest
      return ((name, value) :: more, last)
termination_by s.length
decreasing_by exact Nat.lt_trans (length_target_lt _htarget) (length_key_lt _hkey)

/-- Reads a module map. -/
def moduleMap (s : List Char) : Reading (ModuleMap × List Char) :=
  match skip s with
  | '\x7b' :: cs => do
    let (found, rest) ← pairs true cs
    return (.ofList found, rest)
  | rest => .error (mismatch .map rest)

/-- Reads a text that holds one module map and nothing else. -/
def moduleMapText (s : List Char) : Reading ModuleMap := do
  let (map, rest) ← moduleMap s
  finish rest
  return map

theorem length_pairs_lt {first : Bool} {s rest : List Char} {found : List (String × String)}
    (h : pairs first s = .ok (found, rest)) : rest.length < s.length := by
  fun_induction pairs first s generalizing found rest with
  | case1 => simp at h
  | case2 _ _ _ hkey =>
    cases h
    exact length_key_lt hkey
  | case3 => simp at h
  | case4 _ _ _ _ hkey _ _ htarget ih =>
    obtain ⟨⟨more, last⟩, hrec, h⟩ := bind_eq_ok_iff.1 h
    cases h
    have h₁ := length_key_lt hkey
    have h₂ := length_target_lt htarget
    have h₃ := ih hrec
    omega

theorem length_moduleMap_lt {s rest : List Char} {map : ModuleMap}
    (h : moduleMap s = .ok (map, rest)) : rest.length < s.length := by
  unfold moduleMap at h
  have hle := length_skip_le s
  split at h
  · rename_i hs
    rw [hs, List.length_cons] at hle
    obtain ⟨⟨found, last⟩, hpairs, h⟩ := bind_eq_ok_iff.1 h
    cases h
    have hlt := length_pairs_lt hpairs
    omega
  · simp at h

end Retarget.Config
