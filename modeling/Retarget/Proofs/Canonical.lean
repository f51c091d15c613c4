import Retarget.Proofs.Walk

/-!
# Normal forms are canonical

Specifiers that lead to the same place from everywhere are written in the same way, provided that
they begin alike and end alike: a leading separator or `./` and a trailing separator are kept by
normalisation although they lead nowhere.

Results:
1. `Reduced.eq_of_foldl_enter`: reduced segments can be told from where they lead, the names from a
   walk that starts at the root and the number of `..` segments from one that starts deep enough.
2. `normalize_eq_normalize_iff`: two specifiers that are written alike have the same normal form
   exactly when they lead to the same places.
-/

namespace Retarget

namespace Specifier

/-! ## Definitions -/

/-- Both texts are absolute, both are explicitly relative, or neither is either; and both end in a
separator or neither does. -/
structure Alike (s t : List Char) : Prop where
  absolute : isAbsolute s = isAbsolute t
  explicit : isExplicit s = isExplicit t
  directory : s.getLast? = some '/' ↔ t.getLast? = some '/'

/-- Both texts lead to the same place from every directory, whose names are ordinary segments. Of
absolute texts this is asked at the root only. -/
def SamePlaces (s t : List Char) : Prop :=
  ∀ base, (∀ name ∈ base, Ordinary name) → (isAbsolute s = true → base = []) →
    walk base s = walk base t

/-! ## 1. Reduced segments -/

/-- Reduced segments that lead to the same places are the same. -/
theorem Reduced.eq_of_foldl_enter {absolute : Bool} {segs segs' : List Segment}
    (h : Reduced absolute segs) (h' : Reduced absolute segs')
    (hplaces : ∀ base, (∀ name ∈ base, Ordinary name) → (absolute = true → base = []) →
      segs.foldl enter base = segs'.foldl enter base) : segs = segs' := by
  obtain ⟨climbing, names, rfl, hnames, hclimbing⟩ := h
  obtain ⟨climbing', names', rfl, hnames', hclimbing'⟩ := h'
  have hlead : ∀ base, (∀ name ∈ base, Ordinary name) → (absolute = true → base = []) →
      names.reverse ++ base.drop climbing = names'.reverse ++ base.drop climbing' := by
    intro base hbase hroot
    rw [← foldl_enter_reduced hnames, ← foldl_enter_reduced hnames', hplaces base hbase hroot]
  have hsame : names = names' := by
    simpa using hlead [] (List.forall_mem_nil _) fun _ => rfl
  have hup : climbing = climbing' := by
    cases absolute with
    | true => rw [hclimbing rfl, hclimbing' rfl]
    | false =>
      -- In a directory that is deep enough for both, each `..` takes away one name.
      have hname : Ordinary ['a'] := ⟨by decide, by decide, by decide, by decide⟩
      have hdeep := hlead (List.replicate (climbing + climbing') ['a'])
        (fun name hmem => by rwa [(List.mem_replicate.mp hmem).2]) (by simp)
      have hlength := congrArg List.length hdeep
      rw [hsame, List.length_append, List.length_append, List.length_drop, List.length_drop,
        List.length_replicate] at hlength
      omega
  rw [hsame, hup]

/-! ## 2. Normal forms -/

theorem fold_eq_of_samePlaces {s t : List Char} (h : SamePlaces s t) :
    fold (isAbsolute s) (segments s) = fold (isAbsolute s) (segments t) := by
  apply (reduced_fold (isAbsolute s) s).eq_of_foldl_enter (reduced_fold (isAbsolute s) t)
  intro base hbase hroot
  rw [walk_fold hroot, walk_fold hroot, h base hbase hroot]

theorem tidy_eq_of_samePlaces {s t : List Char} (halike : Alike s t)
    (h : SamePlaces s t) : tidy s = tidy t := by
  have hdirectory : decide (s.getLast? = some '/') = decide (t.getLast? = some '/') :=
    decide_eq_decide.mpr halike.directory
  rw [tidy_eq_render_getLast, tidy_eq_render_getLast, fold_eq_of_samePlaces h, hdirectory,
    halike.absolute, halike.explicit]

theorem samePlaces_of_tidy_eq {s t : List Char} (halike : Alike s t) (h : tidy s = tidy t) :
    SamePlaces s t := by
  intro base _ hroot
  rw [← walk_tidy hroot, h, walk_tidy (halike.absolute ▸ hroot)]

end Specifier

open Specifier

/-- Specifiers that are written alike have the same normal form exactly when they lead to the same
place from every directory or, if they are absolute, from the root. -/
theorem normalize_eq_normalize_iff (p q : String) (halike : Alike p.toList q.toList) :
    normalize p = normalize q ↔ SamePlaces p.toList q.toList := by
  rw [← String.toList_inj, toList_normalize, toList_normalize]
  exact ⟨samePlaces_of_tidy_eq halike, tidy_eq_of_samePlaces halike⟩

/-- Two ways out of a directory and into its neighbour `c`. -/
theorem normalize_eq_normalize_neighbour :
    Alike "x/..//../c/./".toList ".././y/../c//".toList ∧
      SamePlaces "x/..//../c/./".toList ".././y/../c//".toList ∧
      normalize "x/..//../c/./" = normalize ".././y/../c//" := by
  have halike : Alike "x/..//../c/./".toList ".././y/../c//".toList :=
    ⟨by decide +kernel, by decide +kernel, by decide +kernel⟩
  have hp : segments "x/..//../c/./".toList = [['x'], up, [], up, ['c'], here, []] := by
    decide +kernel
  have hq : segments ".././y/../c//".toList = [up, here, ['y'], up, ['c'], [], []] := by
    decide +kernel
  have hplaces : SamePlaces "x/..//../c/./".toList ".././y/../c//".toList := by
    intro base _ _
    rw [walk, walk, hp, hq]
    rfl
  exact ⟨halike, hplaces, (normalize_eq_normalize_iff _ _ halike).mpr hplaces⟩

end Retarget
