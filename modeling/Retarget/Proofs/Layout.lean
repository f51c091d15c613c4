import Retarget.Proofs.Walk

/-!
# How normal forms are laid out

A text is the same as the list of its segments: how it begins and how it ends can be told from the
first and the last one. A normal form consists of the folded segments with at most one segment before
them, which is empty at the root and `.` in an explicitly relative specifier, and at most one empty
segment behind them.

Results:
1. `join_segments`: segments join to the text they come from; `isAbsolute_of_segments`,
   `isExplicit_of_segments`, `climbs_of_segments`, `getLast?_iff`, `doubled_iff`: what they tell of
   it.
2. `segments_render`: the segments of what is written.
3. `isExplicit_normalize`: an explicitly relative specifier stays so or climbs, and no other one
   becomes explicitly relative.
-/

namespace Retarget

namespace Specifier

/-! ## Definitions -/

/-- The segment that is written before the folded ones, if any. -/
def opening (absolute explicit : Bool) (segs : List Segment) : List Segment :=
  if absolute then [[]]
  else if explicit && !climbs (join segs) then [here]
  else []

/-- The segment that is written behind the folded ones, if any. -/
def closing (directory : Bool) : List Segment :=
  if directory then [[]] else []

/-! ## 1. Texts and their segments -/

theorem join_cons {rest : List Segment} (h : rest ≠ []) (seg : Segment) :
    join (seg :: rest) = seg ++ '/' :: join rest := by
  obtain ⟨next, more, rfl⟩ := List.exists_cons_of_ne_nil h
  rfl

theorem join_append {segs rest : List Segment} (hsegs : segs ≠ []) (hrest : rest ≠ []) :
    join (segs ++ rest) = join segs ++ '/' :: join rest := by
  induction segs with
  | nil => exact absurd rfl hsegs
  | cons seg more ih =>
    by_cases hmore : more = []
    · subst hmore
      exact join_cons hrest seg
    · rw [List.cons_append, join_cons (List.append_ne_nil_of_left_ne_nil hmore rest), ih hmore,
        join_cons hmore, List.append_assoc]
      rfl

theorem join_segments (s : List Char) : join (segments s) = s := by
  induction s with
  | nil => rfl
  | cons c cs ih =>
    by_cases hc : c = '/'
    · rw [hc, segments_slash, join_cons (segments_ne_nil cs), ih]
      rfl
    · obtain ⟨seg, rest, hcs⟩ := List.exists_cons_of_ne_nil (segments_ne_nil cs)
      rw [segments_cons hc hcs, ← ih, hcs]
      cases rest <;> rfl

theorem eq_of_segments_eq {s t : List Char} (h : segments s = segments t) : s = t := by
  rw [← join_segments s, h, join_segments]

/-- A text begins with a segment and a separator exactly when that segment is its first one and not
its only one. -/
theorem opens_iff {s : List Char} {first seg : Segment} {rest : List Segment}
    (h : segments s = first :: rest) (hseg : '/' ∉ seg) :
    seg ++ ['/'] <+: s ↔ first = seg ∧ rest ≠ [] := by
  constructor
  · rintro ⟨t, rfl⟩
    rw [List.append_assoc, List.singleton_append, segments_append, segments_of_not_mem hseg,
      List.singleton_append] at h
    obtain ⟨rfl, rfl⟩ := List.cons.inj h
    exact ⟨rfl, segments_ne_nil t⟩
  · rintro ⟨rfl, hrest⟩
    refine ⟨join rest, ?_⟩
    rw [← join_segments s, h, join_cons hrest, List.append_assoc]
    rfl

theorem isAbsolute_of_segments {s : List Char} {first : Segment} {rest : List Segment}
    (h : segments s = first :: rest) : isAbsolute s = true ↔ first = [] ∧ rest ≠ [] := by
  rw [← opens_iff h List.not_mem_nil, isAbsolute, decide_eq_true_iff, List.head?_eq_some_iff]
  exact exists_congr fun t => eq_comm

theorem isExplicit_of_segments {s : List Char} {first : Segment} {rest : List Segment}
    (h : segments s = first :: rest) : isExplicit s = true ↔ first = here ∧ rest ≠ [] := by
  rw [← opens_iff h (by decide), isExplicit, List.isPrefixOf_iff_prefix]
  rfl

theorem climbs_of_segments {s : List Char} {first : Segment} {rest : List Segment}
    (h : segments s = first :: rest) : climbs s = true ↔ first = up := by
  have honly : s = up ↔ first = up ∧ rest = [] := by
    constructor
    · rintro rfl
      exact ⟨(List.cons.inj h).1.symm, (List.cons.inj h).2.symm⟩
    · rintro ⟨rfl, rfl⟩
      exact eq_of_segments_eq h
  have hmore := opens_iff h (by decide : '/' ∉ up)
  rw [climbs, Bool.or_eq_true, decide_eq_true_iff, List.isPrefixOf_iff_prefix]
  show s = up ∨ up ++ ['/'] <+: s ↔ first = up
  rw [honly, hmore, ← and_or_left, and_iff_left (Decidable.em _)]

/-- A text ends in a separator exactly when its last segment is empty and not its only one. -/
theorem getLast?_iff {s : List Char} :
    s.getLast? = some '/' ↔ (segments s).tail.getLast? = some [] := by
  rw [List.getLast?_eq_some_iff, List.getLast?_eq_some_iff]
  constructor
  · rintro ⟨t, rfl⟩
    refine ⟨(segments t).tail, ?_⟩
    rw [segments_append, List.tail_append_of_ne_nil (segments_ne_nil t)]
    rfl
  · rintro ⟨inner, hinner⟩
    obtain ⟨first, rest, hs⟩ := List.exists_cons_of_ne_nil (segments_ne_nil s)
    rw [hs, List.tail_cons] at hinner
    refine ⟨join (first :: inner), ?_⟩
    rw [← join_segments s, hs, hinner, ← List.cons_append,
      join_append (List.cons_ne_nil _ _) (List.cons_ne_nil _ _)]
    rfl

/-- Two separators stand side by side exactly where there is an empty segment between others. -/
theorem doubled_iff {s : List Char} :
    ['/', '/'] <:+: s ↔ [] ∈ (segments s).tail.dropLast := by
  constructor
  · rintro ⟨t, u, rfl⟩
    obtain ⟨first, rest, ht⟩ := List.exists_cons_of_ne_nil (segments_ne_nil t)
    have hsegs : segments (t ++ ['/', '/'] ++ u) = first :: (rest ++ [] :: segments u) := by
      rw [List.append_assoc, List.cons_append, segments_append, ht, List.singleton_append,
        segments_slash]
      rfl
    rw [hsegs, List.tail_cons, List.dropLast_append_of_ne_nil (List.cons_ne_nil _ _),
      List.dropLast_cons_of_ne_nil (segments_ne_nil u)]
    exact List.mem_append_right rest List.mem_cons_self
  · intro h
    obtain ⟨first, rest, hs⟩ := List.exists_cons_of_ne_nil (segments_ne_nil s)
    rw [hs, List.tail_cons] at h
    rcases List.eq_nil_or_concat rest with rfl | ⟨inner, last, rfl⟩
    · exact absurd h List.not_mem_nil
    · rw [List.concat_eq_append, List.dropLast_concat] at h
      obtain ⟨before, after, rfl⟩ := List.append_of_mem h
      have hsegs : segments s = (first :: before) ++ [] :: (after ++ [last]) := by
        rw [hs, List.concat_eq_append, List.append_assoc]
        rfl
      refine ⟨join (first :: before), join (after ++ [last]), ?_⟩
      rw [← join_segments s, hsegs, join_append (List.cons_ne_nil _ _) (List.cons_ne_nil _ _),
        join_cons (List.append_ne_nil_of_right_ne_nil _ (List.cons_ne_nil _ _)),
        List.append_assoc]
      rfl

/-! ## 2. What is written -/

theorem opening_cases (absolute explicit : Bool) (segs : List Segment) :
    opening absolute explicit segs = [] ∨
      ∃ seg, (seg = [] ∨ seg = here) ∧ opening absolute explicit segs = [seg] := by
  unfold opening
  split
  · exact .inr ⟨[], .inl rfl, rfl⟩
  · split
    · exact .inr ⟨here, .inr rfl, rfl⟩
    · exact .inl rfl

theorem mem_closing {directory : Bool} {seg : Segment} (h : seg ∈ closing directory) :
    seg = [] := by
  unfold closing at h
  split at h
  · exact List.mem_singleton.mp h
  · exact absurd h List.not_mem_nil

theorem lead_ne_nil {body : List Char} (h : body ≠ []) (absolute explicit : Bool) :
    lead absolute explicit body ≠ [] := by
  unfold lead
  split
  · exact List.cons_ne_nil _ _
  · split
    · exact List.cons_ne_nil _ _
    · exact h

theorem segments_lead {absolute : Bool} {segs : List Segment} (h : Reduced absolute segs)
    (hne : segs ≠ []) (explicit : Bool) :
    segments (lead absolute explicit (join segs)) = opening absolute explicit segs ++ segs := by
  have hjoin := segments_join hne h.slash
  unfold lead opening
  split
  · rw [segments_slash, hjoin]
    rfl
  · split
    · rw [← List.singleton_append, segments_append, hjoin]
      rfl
    · exact hjoin

theorem mem_of_mem_tail_opening {absolute explicit : Bool} {segs : List Segment} {seg : Segment}
    (h : seg ∈ (opening absolute explicit segs ++ segs).tail) : seg ∈ segs := by
  rcases opening_cases absolute explicit segs with hopening | ⟨first, _, hopening⟩
  · rw [hopening] at h
    exact List.mem_of_mem_tail h
  · rw [hopening] at h
    exact h

theorem getLast?_lead {absolute : Bool} {segs : List Segment} (h : Reduced absolute segs)
    (hne : segs ≠ []) (explicit : Bool) :
    (lead absolute explicit (join segs)).getLast? ≠ some '/' := by
  rw [ne_eq, getLast?_iff, segments_lead h hne]
  intro hlast
  have hmem := mem_of_mem_tail_opening (List.mem_of_getLast? hlast)
  exact (h.leads [] hmem).1 rfl

theorem render_of_ne_nil {absolute : Bool} {segs : List Segment} (h : Reduced absolute segs)
    (hne : segs ≠ []) (explicit directory : Bool) :
    render absolute explicit directory segs =
      close directory (lead absolute explicit (join segs)) :=
  nonempty_of_ne_nil
    (close_ne_nil (lead_ne_nil (isAbsolute_join h hne).1 absolute explicit) directory)

/-- The segments of what is written, unless nothing was left to be written. -/
theorem segments_render {absolute : Bool} {segs : List Segment} (h : Reduced absolute segs)
    (hne : segs ≠ []) (explicit directory : Bool) :
    segments (render absolute explicit directory segs) =
      opening absolute explicit segs ++ segs ++ closing directory := by
  rw [render_of_ne_nil h hne, ← segments_lead h hne]
  cases directory with
  | false => exact (List.append_nil _).symm
  | true =>
    rw [close_true (getLast?_lead h hne explicit), segments_append]
    rfl

/-- What is written ends in a separator when a directory is written, or when there is nothing to
write behind the leading part. -/
theorem getLast?_render {absolute : Bool} {segs : List Segment} (h : Reduced absolute segs)
    (explicit directory : Bool) :
    (render absolute explicit directory segs).getLast? = some '/' ↔
      directory = true ∨ render absolute explicit directory segs = ['/'] ∨
        render absolute explicit directory segs = ['.', '/'] := by
  by_cases hne : segs = []
  · subst hne
    cases absolute <;> cases explicit <;> cases directory <;> decide
  constructor
  · intro hlast
    cases directory with
    | false =>
      rw [render_of_ne_nil h hne, close_false] at hlast
      exact absurd hlast (getLast?_lead h hne explicit)
    | true => exact .inl rfl
  · rintro (rfl | hroot | hstay)
    · rw [render_of_ne_nil h hne, close_true (getLast?_lead h hne explicit)]
      exact List.getLast?_concat
    · rw [hroot]
      rfl
    · rw [hstay]
      rfl

/-- Reduced segments climb as soon as there is a `..` among them. -/
theorem climbs_join {absolute : Bool} {segs : List Segment} (h : Reduced absolute segs) :
    climbs (join segs) = true ↔ up ∈ segs := by
  cases segs with
  | nil => exact iff_of_false (by decide) List.not_mem_nil
  | cons first more =>
    rw [climbs_of_segments (segments_join (List.cons_ne_nil first more) h.slash)]
    constructor
    · rintro rfl
      exact List.mem_cons_self
    · intro hup
      obtain ⟨climbing, names, hsegs, hnames, _⟩ := h
      cases climbing with
      | zero =>
        rw [hsegs] at hup
        exact absurd rfl (hnames up hup).ne_up
      | succ climbing => exact (List.cons.inj hsegs).1

/-- Only segments that do not climb are written with something before them. -/
theorem up_not_mem_of_opening {absolute explicit : Bool} {segs : List Segment}
    (h : Reduced absolute segs) (hopening : opening absolute explicit segs ≠ []) : up ∉ segs := by
  cases absolute with
  | true => exact h.up_not_mem
  | false =>
    intro hup
    have hclimbs := (climbs_join h).mpr hup
    exact hopening (by simp [opening, hclimbs])

/-! ## 3. Explicitly relative specifiers -/

/-- What is written is explicitly relative exactly when `.` has been put before the segments. -/
theorem isExplicit_render {absolute : Bool} {segs : List Segment} (h : Reduced absolute segs)
    (explicit directory : Bool) :
    isExplicit (render absolute explicit directory segs) = true ↔
      opening absolute explicit segs = [here] := by
  by_cases hne : segs = []
  · subst hne
    cases absolute <;> cases explicit <;> cases directory <;> decide
  have hsegs := segments_render h hne explicit directory
  rcases opening_cases absolute explicit segs with hopening | ⟨seg, _, hopening⟩
  · -- The text begins with the first folded segment, which is not `.`.
    obtain ⟨first, more, rfl⟩ := List.exists_cons_of_ne_nil hne
    rw [hopening] at hsegs
    rw [isExplicit_of_segments hsegs, hopening]
    exact iff_of_false (fun hfirst => (h.leads first List.mem_cons_self).2 hfirst.1)
      (List.cons_ne_nil _ _).symm
  · rw [hopening] at hsegs
    rw [isExplicit_of_segments hsegs, hopening, List.singleton_inj]
    exact and_iff_left (List.append_ne_nil_of_left_ne_nil hne _)

/-- What climbs is written as it is. -/
theorem climbs_render {segs : List Segment} (h : Reduced false segs)
    (hclimbs : climbs (join segs) = true) (explicit directory : Bool) :
    climbs (render false explicit directory segs) = true := by
  have hne : segs ≠ [] := by
    rintro rfl
    cases hclimbs
  have hsegs := segments_render h hne explicit directory
  have hopening : opening false explicit segs = [] := by
    simp [opening, hclimbs]
  obtain ⟨first, more, rfl⟩ := List.exists_cons_of_ne_nil hne
  rw [hopening] at hsegs
  exact (climbs_of_segments hsegs).mpr ((climbs_of_segments (segments_join hne h.slash)).mp hclimbs)

theorem isAbsolute_of_isExplicit {s : List Char} (h : isExplicit s = true) :
    isAbsolute s = false := by
  rw [isAbsolute, (isExplicit_iff.mp h).1]
  rfl

theorem isAbsolute_of_climbs {s : List Char} (h : climbs s = true) : isAbsolute s = false := by
  obtain ⟨first, rest, hsegs⟩ := List.exists_cons_of_ne_nil (segments_ne_nil s)
  rw [climbs_of_segments hsegs] at h
  rw [Bool.eq_false_iff, ne_eq, isAbsolute_of_segments hsegs, h]
  exact fun hnil => absurd hnil.1 (by decide)

theorem isExplicit_or_climbs_tidy {s : List Char} (h : isExplicit s = true) :
    isExplicit (tidy s) = true ∨ climbs (tidy s) = true := by
  have hreduced := reduced_fold false s
  rw [tidy_eq_render, h, isAbsolute_of_isExplicit h]
  cases hclimbs : climbs (join (fold false (segments s))) with
  | false => exact .inl ((isExplicit_render hreduced _ _).mpr (by simp [opening, hclimbs]))
  | true => exact .inr (climbs_render hreduced hclimbs _ _)

theorem isExplicit_tidy_of_not {s : List Char} (h : isExplicit s = false) :
    isExplicit (tidy s) = false := by
  rw [tidy_eq_render, h, Bool.eq_false_iff, ne_eq, isExplicit_render (reduced_fold _ s)]
  cases isAbsolute s <;> simp [opening, here]

end Specifier

open Specifier

/-- An explicitly relative specifier stays explicitly relative or climbs, and no other specifier
becomes explicitly relative. So without a configured lead a name outside of the map is always
resolved to a relative specifier and never to a bare name or an absolute one. -/
theorem isExplicit_normalize :
    (∀ path : String, isExplicit path.toList = true →
      isExplicit (normalize path).toList = true ∨ climbs (normalize path).toList = true) ∧
    (∀ path : String, isExplicit path.toList = false →
      isExplicit (normalize path).toList = false) ∧
    ∀ (settings : Settings) (name : String), settings.mode = .normal →
      settings.map.get? name = none → settings.lead = none →
      ∃ target, settings.resolve name = some target ∧
        (isExplicit target.toList = true ∨ climbs target.toList = true) ∧
        isAbsolute target.toList = false := by
  have hstays : ∀ path : String, isExplicit path.toList = true →
      isExplicit (normalize path).toList = true ∨ climbs (normalize path).toList = true := by
    intro path h
    rw [toList_normalize]
    exact isExplicit_or_climbs_tidy h
  refine ⟨hstays, ?_, ?_⟩
  · intro path h
    rw [toList_normalize]
    exact isExplicit_tidy_of_not h
  · intro settings name hmode hname hlead
    have hexplicit : isExplicit (defaultPrefix ++ name).toList = true := by
      rw [String.toList_append]
      rfl
    have htarget := hstays _ hexplicit
    refine ⟨normalize (defaultPrefix ++ name), ?_, htarget, ?_⟩
    · rw [Settings.resolve, hname, hmode, hlead]
      rfl
    · exact htarget.elim isAbsolute_of_isExplicit isAbsolute_of_climbs

/-- A name that begins with a separator does not get to the root, and one that climbs is relative
without the `./` of the default lead. -/
theorem isExplicit_normalize_climbing :
    let settings : Settings := {}
    isExplicit "./a/..".toList = true ∧
      (isExplicit (normalize "./a/..").toList = true ∨ climbs (normalize "./a/..").toList = true) ∧
      isExplicit "a/./b".toList = false ∧ isExplicit (normalize "a/./b").toList = false ∧
      settings.mode = .normal ∧ settings.map.get? "/../x" = none ∧ settings.lead = none ∧
      ∃ target, settings.resolve "/../x" = some target ∧
        (isExplicit target.toList = true ∨ climbs target.toList = true) ∧
        isAbsolute target.toList = false := by
  intro settings
  have hexplicit : isExplicit "./a/..".toList = true := by decide +kernel
  have himplicit : isExplicit "a/./b".toList = false := by decide +kernel
  obtain ⟨hstays, hnone, hresolve⟩ := isExplicit_normalize
  exact ⟨hexplicit, hstays _ hexplicit, himplicit, hnone _ himplicit, rfl, rfl, rfl,
    hresolve settings "/../x" rfl rfl rfl⟩

end Retarget
