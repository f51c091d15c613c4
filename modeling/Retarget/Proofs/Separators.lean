import Mathlib.Data.List.SplitBy
import Retarget.Proofs.NormalForm

/-!
# Runs of separators

Before the segments of a specifier are folded, each run of two or more separators is replaced by a
single one. `shorten` says this of the runs as a whole, while `collapse` goes through the text with
one character of foresight. Neither is needed: a run makes empty segments only, which fold away, and
how the text begins and ends can be told without replacing it.

Results:
1. `collapse_eq_shorten`: collapsing replaces the runs.
2. `normalize_eq_tidy`: the normal form is the same with the runs replaced and with the runs as they
   stand.
-/

namespace Retarget

namespace Specifier

/-! ## Definitions -/

/-- Whether two neighbours belong to one run of separators. -/
def together (c d : Char) : Bool :=
  c = '/' && d = '/'

/-- Replaces each run of two or more separators by a single one. A character outside of such a run
stands on its own. -/
def shorten (s : List Char) : List Char :=
  (s.splitBy together).flatMap fun run => if 2 ≤ run.length then ['/'] else run

/-! ## 1. Collapsing -/

/-- A text begins with a run of separators, which may be empty, and goes on with something else. -/
theorem exists_run (s : List Char) :
    ∃ n rest, s = List.replicate n '/' ++ rest ∧ rest.head? ≠ some '/' := by
  induction s with
  | nil => exact ⟨0, [], rfl, by simp⟩
  | cons c cs ih =>
    by_cases hc : c = '/'
    · obtain ⟨n, rest, rfl, hrest⟩ := ih
      exact ⟨n + 1, rest, by rw [hc, List.replicate_succ, List.cons_append], hrest⟩
    · exact ⟨0, c :: cs, rfl, by simpa using hc⟩

theorem shorten_cons {c : Char} {cs : List Char} (h : ¬ (c = '/' ∧ cs.head? = some '/')) :
    shorten (c :: cs) = c :: shorten cs := by
  have hapart : ∀ x ∈ [c].getLast?, ∀ y ∈ cs.head?, together x y = false := by
    intro x hx y hy
    obtain rfl : c = x := Option.some.inj hx
    rw [together, Bool.and_eq_false_iff, decide_eq_false_iff_not, decide_eq_false_iff_not]
    by_cases hc : c = '/'
    · exact .inr fun hslash => h ⟨hc, hslash ▸ hy⟩
    · exact .inl hc
  have hsplit : (c :: cs).splitBy together = [c] :: cs.splitBy together :=
    List.splitBy_append hapart
  rw [shorten, hsplit, List.flatMap_cons]
  rfl

theorem shorten_run (n : Nat) {rest : List Char} (h : rest.head? ≠ some '/') :
    shorten (List.replicate (n + 1) '/' ++ rest) = '/' :: shorten rest := by
  have hapart : ∀ x ∈ (List.replicate (n + 1) '/').getLast?, ∀ y ∈ rest.head?,
      together x y = false := by
    intro x _ y hy
    have hslash : y ≠ '/' := by
      rintro rfl
      exact h hy
    rw [together, decide_eq_false hslash, Bool.and_false]
  have hrun : (List.replicate (n + 1) '/').splitBy together = [List.replicate (n + 1) '/'] := by
    apply List.splitBy_of_isChain (by simp)
    exact List.isChain_replicate_of_rel _ rfl
  rw [shorten, List.splitBy_append hapart, hrun, List.flatMap_append, List.flatMap_singleton]
  cases n with
  | zero => rfl
  | succ n =>
    rw [List.length_replicate, if_pos (Nat.le_add_left 2 n)]
    rfl

/-- Collapsing replaces each run of two or more separators by a single one. -/
theorem collapse_eq_shorten (s : List Char) : collapse s = shorten s := by
  induction s with
  | nil => rfl
  | cons c cs ih =>
    by_cases h : c = '/' ∧ cs.head? = some '/'
    · -- The separator is one more in the run with which the rest begins.
      obtain ⟨rfl, hcs⟩ := h
      obtain ⟨ds, rfl⟩ := List.head?_eq_some_iff.mp hcs
      obtain ⟨n, rest, rfl, hrest⟩ := exists_run ds
      rw [collapse_run hcs, ih]
      exact (shorten_run n hrest).trans (shorten_run (n + 1) hrest).symm
    · rw [collapse_cons h, shorten_cons h, ih]

end Specifier

open Specifier

/-! ## 2. Normal forms -/

/-- The normal form of a specifier is written from the text with its runs of separators replaced,
and it is the same when it is written from the text as it stands. -/
theorem normalize_eq_tidy (path : String) :
    normalize path = String.ofList (tidy (shorten path.toList)) ∧
      normalize path = String.ofList (tidy path.toList) := by
  constructor
  · rw [normalize, collapse_eq_shorten]
  · rw [normalize, tidy_collapse]

end Retarget
