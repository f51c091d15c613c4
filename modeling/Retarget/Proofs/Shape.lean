import Retarget.Proofs.Layout

/-!
# The shape of normal forms

A normal form can be told by its look: it is not empty, no separators stand side by side, `.` is
only written alone or before everything else, and `..` segments only before the names. Normalisation
brings every specifier into this shape and leaves one that has it as it is.

Results:
1. `shaped_render`: what is written of reduced segments has the shape.
2. `segments_of_shaped`: a text of that shape is laid out as a normal form; `tidy_eq_self_iff`: it is
   its own normal form, and no other text is.
3. `normalize_normalize`: normalisation is idempotent; `shaped_normalize`: normal forms have the
   shape, and end in a separator when the specifier does.
-/

namespace Retarget

namespace Specifier

/-! ## Definitions -/

instance : DecidablePred Ordinary := fun seg =>
  decidable_of_iff (seg ≠ [] ∧ seg ≠ here ∧ seg ≠ up ∧ '/' ∉ seg)
    ⟨fun ⟨hnil, hhere, hup, hslash⟩ => ⟨hnil, hhere, hup, hslash⟩,
      fun h => ⟨h.ne_nil, h.ne_here, h.ne_up, h.slash⟩⟩

/-- No ordinary segment stands before a `..`. -/
def Ordered (segs : List Segment) : Prop :=
  segs.Pairwise fun earlier later => later = up → ¬ Ordinary earlier

instance : DecidablePred Ordered := fun segs =>
  inferInstanceAs (Decidable (segs.Pairwise _))

/-- How a normal form looks. Its only `.` segment is a leading one, and neither the root nor a leading
`./` is followed by a `..`. -/
structure Shaped (s : List Char) : Prop where
  ne_nil : s ≠ []
  single : ¬ ['/', '/'] <:+: s
  dots : s = here ∨ here ∉ segments s ∨ isExplicit s = true ∧ here ∉ (segments s).tail
  ordered : Ordered (segments s)
  settled : isAbsolute s = true ∨ isExplicit s = true → up ∉ segments s

instance : DecidablePred Shaped := fun s =>
  decidable_of_iff (s ≠ [] ∧ [] ∉ (segments s).tail.dropLast ∧
      (s = here ∨ here ∉ segments s ∨ isExplicit s = true ∧ here ∉ (segments s).tail) ∧
      Ordered (segments s) ∧ (isAbsolute s = true ∨ isExplicit s = true → up ∉ segments s))
    ⟨fun ⟨hnil, hsingle, hdots, hordered, hsettled⟩ =>
        ⟨hnil, (not_congr doubled_iff).mpr hsingle, hdots, hordered, hsettled⟩,
      fun h => ⟨h.ne_nil, (not_congr doubled_iff).mp h.single, h.dots, h.ordered, h.settled⟩⟩

/-! ## 1. What is written has the shape -/

theorem Reduced.ordered {absolute : Bool} {segs : List Segment} (h : Reduced absolute segs) :
    Ordered segs := by
  obtain ⟨climbing, names, rfl, hnames, _⟩ := h
  refine List.pairwise_append.mpr ⟨?_, ?_, ?_⟩
  · exact List.pairwise_replicate.mpr (.inr fun _ hup => hup.ne_up rfl)
  · refine List.pairwise_of_forall_mem_list fun earlier _ later hlater hup => ?_
    exact absurd hup (hnames later hlater).ne_up
  · rintro earlier hearlier later _ _ hup
    exact hup.ne_up (List.mem_replicate.mp hearlier).2

theorem nonempty_ne_nil (out : List Char) : nonempty out ≠ [] := by
  unfold nonempty
  split
  · exact List.cons_ne_nil _ _
  · assumption

theorem mem_of_mem_dropLast_closing {segs : List Segment} {seg : Segment} {directory : Bool}
    (h : seg ∈ (segs ++ closing directory).dropLast) : seg ∈ segs := by
  cases directory with
  | false =>
    rw [closing, if_neg Bool.false_ne_true, List.append_nil] at h
    exact List.dropLast_subset segs h
  | true =>
    rw [closing, if_pos rfl, List.dropLast_concat] at h
    exact h

section Written

variable {absolute : Bool} {segs : List Segment} (h : Reduced absolute segs) (hne : segs ≠ [])
  (explicit directory : Bool)
include h hne

/-- Empty segments stand at the ends only. -/
theorem single_render : ¬ ['/', '/'] <:+: render absolute explicit directory segs := by
  have hsome : opening absolute explicit segs ++ segs ≠ [] :=
    List.append_ne_nil_of_right_ne_nil _ hne
  rw [doubled_iff, segments_render h hne, List.tail_append_of_ne_nil hsome]
  intro hmem
  have hinner := mem_of_mem_tail_opening (mem_of_mem_dropLast_closing hmem)
  exact (h.leads [] hinner).1 rfl

theorem dots_render :
    here ∉ segments (render absolute explicit directory segs) ∨
      isExplicit (render absolute explicit directory segs) = true ∧
        here ∉ (segments (render absolute explicit directory segs)).tail := by
  have hrest : here ∉ segs ++ closing directory := by
    intro hmem
    rcases List.mem_append.mp hmem with hmem | hmem
    · exact (h.leads here hmem).2 rfl
    · exact absurd (mem_closing hmem) (by decide)
  rw [segments_render h hne, isExplicit_render h, List.append_assoc]
  rcases opening_cases absolute explicit segs with hopening | ⟨seg, rfl | rfl, hopening⟩
  · rw [hopening]
    exact .inl hrest
  · rw [hopening]
    exact .inl (List.not_mem_cons_of_ne_of_not_mem (by decide) hrest)
  · rw [hopening]
    exact .inr ⟨rfl, hrest⟩

theorem ordered_render : Ordered (segments (render absolute explicit directory segs)) := by
  have hopening : ∀ seg ∈ opening absolute explicit segs, ¬ Ordinary seg := by
    intro seg hmem hordinary
    rcases opening_cases absolute explicit segs with hnone | ⟨first, hfirst, hsome⟩
    · rw [hnone] at hmem
      exact List.not_mem_nil hmem
    · rw [hsome] at hmem
      exact hordinary.not_idle (List.mem_singleton.mp hmem ▸ hfirst)
  have hclosing : ∀ seg ∈ closing directory, seg ≠ up := by
    intro seg hmem
    rw [mem_closing hmem]
    decide
  rw [segments_render h hne]
  refine List.pairwise_append.mpr ⟨List.pairwise_append.mpr ⟨?_, h.ordered, ?_⟩, ?_, ?_⟩
  · exact List.pairwise_of_forall_mem_list fun earlier hearlier _ _ _ => hopening earlier hearlier
  · exact fun earlier hearlier _ _ _ => hopening earlier hearlier
  · exact List.pairwise_of_forall_mem_list fun _ _ later hlater hup =>
      absurd hup (hclosing later hlater)
  · exact fun _ _ later hlater hup => absurd hup (hclosing later hlater)

/-- What begins with a separator or with `./` has been written with something before the folded
segments, and these do not climb. -/
theorem settled_render
    (hkind : isAbsolute (render absolute explicit directory segs) = true ∨
      isExplicit (render absolute explicit directory segs) = true) :
    up ∉ segments (render absolute explicit directory segs) := by
  have hsegs := segments_render h hne explicit directory
  have hsome : opening absolute explicit segs ≠ [] := by
    intro hopening
    obtain ⟨first, more, rfl⟩ := List.exists_cons_of_ne_nil hne
    have hfirst := h.leads first List.mem_cons_self
    rw [hopening] at hsegs
    rcases hkind with habsolute | hexplicit
    · exact hfirst.1 ((isAbsolute_of_segments hsegs).mp habsolute).1
    · exact hfirst.2 ((isExplicit_of_segments hsegs).mp hexplicit).1
  have hup := up_not_mem_of_opening h hsome
  obtain ⟨seg, hseg, hopening⟩ := (opening_cases absolute explicit segs).resolve_left hsome
  rw [hsegs, hopening]
  intro hmem
  rcases List.mem_append.mp hmem with hmem | hmem
  · rcases List.mem_append.mp hmem with hmem | hmem
    · rw [← List.mem_singleton.mp hmem] at hseg
      exact absurd hseg (by decide)
    · exact hup hmem
  · exact absurd (mem_closing hmem) (by decide)

end Written

theorem shaped_render {absolute : Bool} {segs : List Segment} (h : Reduced absolute segs)
    (explicit directory : Bool) : Shaped (render absolute explicit directory segs) := by
  by_cases hne : segs = []
  · subst hne
    cases absolute <;> cases explicit <;> cases directory <;> decide
  · exact ⟨nonempty_ne_nil _, single_render h hne explicit directory,
      .inr (dots_render h hne explicit directory), ordered_render h hne explicit directory,
      settled_render h hne explicit directory⟩

theorem shaped_tidy (s : List Char) : Shaped (tidy s) := by
  rw [tidy_eq_render]
  exact shaped_render (reduced_fold _ s) _ _

/-! ## 2. Texts of that shape are normal forms -/

theorem reduced_of_ordered {segs : List Segment} (hslash : ∀ seg ∈ segs, '/' ∉ seg)
    (hleads : ∀ seg ∈ segs, seg ≠ [] ∧ seg ≠ here) (h : Ordered segs) : Reduced false segs := by
  induction segs with
  | nil => exact ⟨0, [], rfl, List.forall_mem_nil _, fun _ => rfl⟩
  | cons seg rest ih =>
    obtain ⟨hseg, hrest⟩ := List.pairwise_cons.mp h
    have hordinary : ∀ other ∈ seg :: rest, other ≠ up → Ordinary other := fun other hother hup =>
      ⟨(hleads other hother).1, (hleads other hother).2, hup, hslash other hother⟩
    by_cases hup : seg = up
    · obtain ⟨climbing, names, rfl, hnames, _⟩ :=
        ih (fun other hother => hslash other (List.mem_cons_of_mem seg hother))
          (fun other hother => hleads other (List.mem_cons_of_mem seg hother)) hrest
      exact ⟨climbing + 1, names, by rw [hup]; rfl, hnames, by simp⟩
    · -- The first ordinary segment: no `..` follows it.
      have hfirst := hordinary seg List.mem_cons_self hup
      refine ⟨0, seg :: rest, rfl, ?_, fun _ => rfl⟩
      intro other hother
      apply hordinary other hother
      rcases List.mem_cons.mp hother with rfl | hother
      · exact hup
      · exact fun hlater => hseg other hother hlater hfirst

theorem Shaped.here_not_mem_tail {s : List Char} {first : Segment} {rest : List Segment}
    (h : Shaped s) (hsegs : segments s = first :: rest) : here ∉ rest := by
  rcases h.dots with rfl | hnone | ⟨_, htail⟩
  · rw [← (List.cons.inj hsegs).2]
    exact List.not_mem_nil
  · rw [hsegs] at hnone
    exact fun hmem => hnone (List.mem_cons_of_mem first hmem)
  · rw [hsegs] at htail
    exact htail

theorem Shaped.reduced {s : List Char} (h : Shaped s) : Reduced (isAbsolute s) (steps s) := by
  have hmem : ∀ seg ∈ steps s, seg ∈ segments s ∧ seg ≠ [] ∧ seg ≠ here := fun seg hseg =>
    ⟨(List.mem_filter.mp hseg).1, of_decide_eq_true (List.mem_filter.mp hseg).2⟩
  obtain ⟨climbing, names, hsteps, hnames, _⟩ :=
    reduced_of_ordered (fun seg hseg => not_mem_of_mem_segments (hmem seg hseg).1)
      (fun seg hseg => (hmem seg hseg).2) (List.Pairwise.filter _ h.ordered)
  refine ⟨climbing, names, hsteps, hnames, fun habsolute => ?_⟩
  cases climbing with
  | zero => rfl
  | succ climbing =>
    have hup : up ∈ steps s := by
      rw [hsteps]
      exact List.mem_cons_self
    exact absurd (hmem up hup).1 (h.settled (.inl habsolute))

/-- If only the last segment can be empty and none is `.`, nothing but an empty last one leads
nowhere. -/
theorem eq_filter_append_closing {rest : List Segment} (hempty : [] ∉ rest.dropLast)
    (hhere : here ∉ rest) :
    rest = rest.filter (fun seg => seg ≠ [] ∧ seg ≠ here) ++
      closing (rest.getLast? = some []) := by
  rcases List.eq_nil_or_concat rest with rfl | ⟨inner, last, rfl⟩
  · rfl
  rw [List.concat_eq_append] at hempty hhere ⊢
  rw [List.dropLast_concat] at hempty
  have hinner : inner.filter (fun seg => seg ≠ [] ∧ seg ≠ here) = inner := by
    rw [List.filter_eq_self]
    intro seg hseg
    refine decide_eq_true ⟨?_, ?_⟩
    · rintro rfl
      exact hempty hseg
    · rintro rfl
      exact hhere (List.mem_append_left _ hseg)
  have hlast : last ≠ here := by
    rintro rfl
    exact hhere List.mem_concat_self
  rw [List.filter_append, hinner, List.getLast?_concat]
  by_cases hslash : last = []
  · simp [hslash, closing]
  · simp [hslash, hlast, closing]

section Shaped

variable {s : List Char} {first : Segment} {rest : List Segment} (h : Shaped s)
  (hsegs : segments s = first :: rest)
include h hsegs

theorem Shaped.rest_eq :
    rest = rest.filter (fun seg => seg ≠ [] ∧ seg ≠ here) ++ closing (s.getLast? = some '/') := by
  have hlast : decide (s.getLast? = some '/') = decide (rest.getLast? = some []) :=
    decide_eq_decide.mpr (by rw [getLast?_iff, hsegs, List.tail_cons])
  have hsingle := h.single
  rw [doubled_iff, hsegs] at hsingle
  rw [hlast]
  exact eq_filter_append_closing hsingle (h.here_not_mem_tail hsegs)

/-- An empty segment or `.` at the beginning is what is written before the steps. -/
theorem Shaped.opening_of_idle (hs : s ≠ here) (hfirst : first = [] ∨ first = here) :
    opening (isAbsolute s) (isExplicit s) (steps s) = [first] := by
  have hrest : rest ≠ [] := by
    rintro rfl
    rcases hfirst with rfl | rfl
    · exact h.ne_nil (eq_of_segments_eq hsegs)
    · exact hs (eq_of_segments_eq hsegs)
  rcases hfirst with rfl | rfl
  · rw [(isAbsolute_of_segments hsegs).mpr ⟨rfl, hrest⟩]
    rfl
  · have hexplicit : isExplicit s = true := (isExplicit_of_segments hsegs).mpr ⟨rfl, hrest⟩
    have hclimbs : climbs (join (steps s)) = false := by
      rw [Bool.eq_false_iff, ne_eq, climbs_join h.reduced]
      exact fun hup => h.settled (.inr hexplicit) (List.mem_filter.mp hup).1
    simp [opening, isAbsolute_of_isExplicit hexplicit, hexplicit, hclimbs]

omit h in
theorem opening_of_leads (hfirst : first ≠ [] ∧ first ≠ here) :
    opening (isAbsolute s) (isExplicit s) (steps s) = [] := by
  have hrelative : isAbsolute s = false := by
    rw [Bool.eq_false_iff, ne_eq, isAbsolute_of_segments hsegs]
    exact fun hroot => hfirst.1 hroot.1
  have himplicit : isExplicit s = false := by
    rw [Bool.eq_false_iff, ne_eq, isExplicit_of_segments hsegs]
    exact fun hstay => hfirst.2 hstay.1
  rw [hrelative, himplicit]
  rfl

end Shaped

/-- A text of that shape is laid out as a normal form. -/
theorem segments_of_shaped {s : List Char} (h : Shaped s) (hs : s ≠ here) :
    segments s = opening (isAbsolute s) (isExplicit s) (steps s) ++ steps s ++
      closing (s.getLast? = some '/') := by
  obtain ⟨first, rest, hsegs⟩ := List.exists_cons_of_ne_nil (segments_ne_nil s)
  have hrest := h.rest_eq hsegs
  by_cases hidle : first = [] ∨ first = here
  · have hleads : ¬ (first ≠ [] ∧ first ≠ here) := fun hleads => hidle.elim hleads.1 hleads.2
    rw [h.opening_of_idle hsegs hs hidle, steps, hsegs,
      List.filter_cons_of_neg (by simpa using hleads)]
    exact congrArg (first :: ·) hrest
  · have hleads := not_or.mp hidle
    rw [opening_of_leads hsegs hleads, steps, hsegs,
      List.filter_cons_of_pos (by simpa using hleads)]
    exact congrArg (first :: ·) hrest

/-- When there are no segments to write, the leading and the trailing part are written if they make up
a text other than `.`. -/
theorem segments_render_nil {absolute explicit directory : Bool}
    (hsome : opening absolute explicit [] ++ closing directory ≠ [])
    (hnil : opening absolute explicit [] ++ closing directory ≠ [[]])
    (hhere : opening absolute explicit [] ++ closing directory ≠ [here]) :
    segments (render absolute explicit directory []) =
      opening absolute explicit [] ++ closing directory := by
  revert hsome hnil hhere
  cases absolute <;> cases explicit <;> cases directory <;> decide

theorem tidy_of_shaped {s : List Char} (h : Shaped s) : tidy s = s := by
  by_cases hs : s = here
  · rw [hs]
    rfl
  have hsegs := segments_of_shaped h hs
  rw [tidy_eq_render_getLast, ← fold_steps, fold_of_reduced h.reduced]
  apply eq_of_segments_eq
  by_cases hne : steps s = []
  · rw [hne, List.append_nil] at hsegs
    rw [hne, hsegs]
    apply segments_render_nil
    · rw [← hsegs]
      exact segments_ne_nil s
    · rw [← hsegs]
      exact fun hnil => h.ne_nil (eq_of_segments_eq hnil)
    · rw [← hsegs]
      exact fun hhere => hs (eq_of_segments_eq hhere)
  · rw [segments_render h.reduced hne, ← hsegs]

/-- The shape tells the normal forms from all other texts. -/
theorem tidy_eq_self_iff {s : List Char} : tidy s = s ↔ Shaped s :=
  ⟨fun h => h ▸ shaped_tidy s, tidy_of_shaped⟩

example : Shaped "../../a/".toList ∧ ¬ Shaped "./../a".toList ∧ ¬ Shaped "a/./b".toList := by
  decide +kernel

end Specifier

open Specifier

/-! ## 3. Normal forms -/

/-- A normal form is its own normal form. -/
theorem normalize_normalize (path : String) : normalize (normalize path) = normalize path := by
  rw [← String.toList_inj, toList_normalize, toList_normalize]
  exact tidy_of_shaped (shaped_tidy path.toList)

/-- Every normal form has the shape. It ends in a separator if the specifier does, and otherwise only
if it is the root or `./`. -/
theorem shaped_normalize (path : String) :
    Shaped (normalize path).toList ∧
      ((normalize path).toList.getLast? = some '/' ↔
        path.toList.getLast? = some '/' ∨ normalize path = "/" ∨ normalize path = "./") := by
  rw [← String.toList_inj, ← String.toList_inj, toList_normalize]
  refine ⟨shaped_tidy path.toList, ?_⟩
  rw [tidy_eq_render_getLast, getLast?_render (reduced_fold _ _), decide_eq_true_iff]
  rfl

end Retarget
