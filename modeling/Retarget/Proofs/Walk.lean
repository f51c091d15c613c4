import Retarget.Proofs.NormalForm

/-!
# Where a specifier leads

A specifier can be walked from any directory, which is a stack of names with the innermost one on
top: a name enters a directory, `..` leaves one, and empty segments and `.` stay. A normal form
leads where the specifier led. An absolute specifier is only ever walked from the root.

A normal form is absolute when the specifier is, with one exception: of a relative directory
specifier that leads nowhere, such as `a/../`, nothing but its trailing separator is written, and
that reads as the root.

Results:
1. `foldl_enter_push`, `walk_fold`: the segments that folding leaves lead where all segments lead.
2. `walk_normalize`: a normal form leads where the specifier leads.
3. `fold_eq_nil_iff`: folding leaves nothing exactly of a text that leads from everywhere back.
4. `isAbsolute_normalize`: a normal form is absolute exactly when the specifier is, unless the
   specifier vanishes.
-/

namespace Retarget

namespace Specifier

/-! ## Definitions -/

/-- Goes along one segment from a stack of names. Above the outermost directory there is nothing. -/
def enter (stack : List Segment) (seg : Segment) : List Segment :=
  if seg = [] ∨ seg = here then stack
  else if seg = up then stack.tail
  else seg :: stack

/-- Goes along all segments of a text, one after the other. -/
def walk (stack : List Segment) (s : List Char) : List Segment :=
  (segments s).foldl enter stack

/-- A relative directory specifier that is not explicitly relative and leads from everywhere back:
there is no segment left to write before its trailing separator. -/
structure Vanishing (s : List Char) : Prop where
  relative : isAbsolute s = false
  implicit : isExplicit s = false
  directory : s.getLast? = some '/'
  stays : ∀ stack, walk stack s = stack

/-! ## 1. Folded segments lead where all segments lead -/

theorem enter_of_idle {stack : List Segment} {seg : Segment} (h : seg = [] ∨ seg = here) :
    enter stack seg = stack :=
  if_pos h

theorem enter_up (stack : List Segment) : enter stack up = stack.tail :=
  rfl

theorem Ordinary.enter {stack : List Segment} {seg : Segment} (h : Ordinary seg) :
    enter stack seg = seg :: stack := by
  unfold Specifier.enter
  rw [if_neg h.not_idle, if_neg h.ne_up]

theorem walk_steps (stack : List Segment) (s : List Char) :
    (steps s).foldl enter stack = walk stack s :=
  foldl_steps (fun _ _ => enter_of_idle) stack s

theorem Reduced.ordinary {absolute : Bool} {segs : List Segment} (h : Reduced absolute segs)
    {seg : Segment} (hseg : seg ∈ segs) (hup : seg ≠ up) : Ordinary seg := by
  obtain ⟨climbing, names, rfl, hnames, _⟩ := h
  rcases List.mem_append.mp hseg with hseg | hseg
  · exact absurd (List.mem_replicate.mp hseg).2 hup
  · exact hnames seg hseg

theorem Reduced.up_not_mem {segs : List Segment} (h : Reduced true segs) : up ∉ segs := by
  obtain ⟨climbing, names, rfl, hnames, hclimbing⟩ := h
  rw [hclimbing rfl]
  exact fun hup => (hnames up hup).ne_up rfl

/-- One more segment on the stack leads one step further. The root is the only place from which an
absolute text is walked, so that the `..` that folding drops there would not lead anywhere. -/
theorem foldl_enter_push {absolute : Bool} {base stack : List Segment} {seg : Segment}
    (hbase : absolute = true → base = []) (hseg : '/' ∉ seg) (h : Reduced absolute stack.reverse) :
    (push absolute stack seg).reverse.foldl enter base =
      enter (stack.reverse.foldl enter base) seg := by
  have hput : ∀ other, (other :: stack).reverse.foldl enter base =
      enter (stack.reverse.foldl enter base) other := by
    intro other
    rw [List.reverse_cons, List.foldl_append]
    rfl
  by_cases hidle : seg = [] ∨ seg = here
  · rw [push_of_idle hidle, enter_of_idle hidle]
  by_cases hup : seg = up
  · subst hup
    cases stack with
    | nil =>
      cases absolute with
      | true =>
        rw [hbase rfl]
        rfl
      | false => rfl
    | cons top below =>
      by_cases htop : top = up
      · subst htop
        cases absolute with
        | true => exact absurd (List.mem_reverse.mpr List.mem_cons_self) h.up_not_mem
        | false => exact hput up
      · -- An ordinary segment is on top; the walk enters it and leaves it again.
        have hpush : push absolute (top :: below) up = below := if_neg htop
        have hordinary := h.ordinary (List.mem_reverse.mpr List.mem_cons_self) htop
        rw [hpush, List.reverse_cons, List.foldl_append, List.foldl_cons, List.foldl_nil,
          hordinary.enter, enter_up, List.tail_cons]
  · rw [not_or] at hidle
    have hordinary : Ordinary seg := ⟨hidle.1, hidle.2, hup, hseg⟩
    rw [hordinary.push, hput]

theorem foldl_enter_foldl_push {absolute : Bool} {base stack segs : List Segment}
    (hbase : absolute = true → base = []) (hsegs : ∀ seg ∈ segs, '/' ∉ seg)
    (h : Reduced absolute stack.reverse) :
    (segs.foldl (push absolute) stack).reverse.foldl enter base =
      segs.foldl enter (stack.reverse.foldl enter base) := by
  induction segs generalizing stack with
  | nil => rfl
  | cons seg rest ih =>
    have hrest : ∀ other ∈ rest, '/' ∉ other :=
      fun other hother => hsegs other (List.mem_cons_of_mem seg hother)
    have hseg := hsegs seg List.mem_cons_self
    rw [List.foldl_cons, List.foldl_cons, ih hrest (reduced_push hseg h),
      foldl_enter_push hbase hseg h]

theorem walk_fold {absolute : Bool} {base : List Segment} (hbase : absolute = true → base = [])
    (s : List Char) : (fold absolute (segments s)).foldl enter base = walk base s :=
  foldl_enter_foldl_push hbase (fun _ hseg => not_mem_of_mem_segments hseg)
    ⟨0, [], rfl, List.forall_mem_nil _, fun _ => rfl⟩

theorem walk_tidy {base : List Segment} {s : List Char} (hbase : isAbsolute s = true → base = []) :
    walk base (tidy s) = walk base s := by
  rw [← walk_steps, steps_tidy, walk_fold hbase]

end Specifier

open Specifier

/-! ## 2. Normal forms -/

theorem toList_normalize (path : String) : (normalize path).toList = tidy path.toList := by
  rw [normalize, String.toList_ofList, tidy_collapse]

/-- A normal form leads where the specifier leads, from every directory if the specifier is relative
and from the root if it is absolute. -/
theorem walk_normalize (path : String) (base : List Segment)
    (hbase : isAbsolute path.toList = true → base = []) :
    walk base (normalize path).toList = walk base path.toList := by
  rw [toList_normalize, walk_tidy hbase]

/-- From a directory `a/b` one path climbs out of `b` and goes on; the root cannot be climbed out
of. -/
theorem walk_normalize_climbing :
    isAbsolute "x/..//../c/./".toList = false ∧
      normalize "x/..//../c/./" = "../c/" ∧
      walk [['b'], ['a']] (normalize "x/..//../c/./").toList = [['c'], ['a']] ∧
      walk [['b'], ['a']] (normalize "x/..//../c/./").toList =
        walk [['b'], ['a']] "x/..//../c/./".toList ∧
      isAbsolute "/../c".toList = true ∧
      walk [] (normalize "/../c").toList = walk [] "/../c".toList := by
  have hrelative : isAbsolute "x/..//../c/./".toList = false := by decide +kernel
  have habsolute : isAbsolute "/../c".toList = true := by decide +kernel
  refine ⟨hrelative, by decide +kernel, by decide +kernel, ?_, habsolute, ?_⟩
  · exact walk_normalize _ _ fun h => absurd h (ne_true_of_eq_false hrelative)
  · exact walk_normalize _ _ fun _ => rfl

/-! ## 3. Texts that lead nowhere -/

namespace Specifier

theorem foldl_enter_up (climbing : Nat) (stack : List Segment) :
    (List.replicate climbing up).foldl enter stack = stack.drop climbing := by
  induction climbing generalizing stack with
  | zero => rfl
  | succ climbing ih =>
    rw [List.replicate_succ, List.foldl_cons, ih, enter_up, List.drop_tail]

/-- Where reduced segments lead: as many directories up as there are `..` segments, and then down
the names. -/
theorem foldl_enter_reduced {names : List Segment} (h : ∀ seg ∈ names, Ordinary seg)
    (climbing : Nat) (stack : List Segment) :
    (List.replicate climbing up ++ names).foldl enter stack =
      names.reverse ++ stack.drop climbing := by
  rw [List.foldl_append, foldl_enter_up, foldl_ordinary Ordinary.enter h]

/-- Folding leaves nothing exactly of a text that leads from everywhere back. -/
theorem fold_eq_nil_iff {s : List Char} :
    fold false (segments s) = [] ↔ ∀ stack, walk stack s = stack := by
  have hwalk : ∀ stack, (fold false (segments s)).foldl enter stack = walk stack s :=
    fun stack => walk_fold (by simp) s
  constructor
  · intro h stack
    rw [← hwalk, h]
    rfl
  · intro h
    obtain ⟨climbing, names, hfold, hnames, _⟩ := reduced_fold false s
    have hlead : ∀ stack, names.reverse ++ stack.drop climbing = stack := by
      intro stack
      rw [← foldl_enter_reduced hnames, ← hfold, hwalk, h]
    -- From the root no name is entered, and from a single directory none is left.
    have hnone : names = [] := by simpa using hlead []
    have hstay := hlead [here]
    cases climbing with
    | zero => rw [hfold, hnone]; rfl
    | succ climbing => simp [hnone] at hstay

/-! ## 4. Absolute normal forms -/

theorem head?_close {out : List Char} (h : out ≠ []) (directory : Bool) :
    (close directory out).head? = out.head? := by
  obtain ⟨c, cs, rfl⟩ := List.exists_cons_of_ne_nil h
  unfold close
  split <;> rfl

theorem nonempty_of_ne_nil {out : List Char} (h : out ≠ []) : nonempty out = out :=
  if_neg h

/-- What is written begins as its leading part does, unless that is empty. -/
theorem isAbsolute_render {absolute explicit directory : Bool} {segs : List Segment}
    (h : lead absolute explicit (join segs) ≠ []) :
    isAbsolute (render absolute explicit directory segs) =
      isAbsolute (lead absolute explicit (join segs)) := by
  rw [render, nonempty_of_ne_nil (close_ne_nil h directory), isAbsolute, head?_close h]
  rfl

theorem isAbsolute_render_nil (explicit directory : Bool) :
    isAbsolute (render false explicit directory []) = (!explicit && directory) := by
  cases explicit <;> cases directory <;> rfl

/-- The first segment that is written is no separator. -/
theorem isAbsolute_join {absolute : Bool} {segs : List Segment} (h : Reduced absolute segs)
    (hne : segs ≠ []) : join segs ≠ [] ∧ isAbsolute (join segs) = false := by
  obtain ⟨seg, rest, rfl⟩ := List.exists_cons_of_ne_nil hne
  have hslash := h.slash seg List.mem_cons_self
  obtain ⟨c, cs, rfl⟩ := List.exists_cons_of_ne_nil (h.leads seg List.mem_cons_self).1
  have hc : c ≠ '/' := fun hc => hslash (by rw [hc]; exact List.mem_cons_self)
  cases rest with
  | nil => simp [join, isAbsolute, hc]
  | cons next more => simp [join, isAbsolute, hc]

theorem isAbsolute_render_false {explicit directory : Bool} {segs : List Segment}
    (h : Reduced false segs) (hne : segs ≠ []) :
    isAbsolute (render false explicit directory segs) = false := by
  obtain ⟨hjoin, habsolute⟩ := isAbsolute_join h hne
  have hlead : lead false explicit (join segs) ≠ [] ∧
      isAbsolute (lead false explicit (join segs)) = false := by
    rw [lead, if_neg Bool.false_ne_true]
    split
    · exact ⟨List.cons_ne_nil _ _, rfl⟩
    · exact ⟨hjoin, habsolute⟩
  rw [isAbsolute_render hlead.1, hlead.2]

theorem isDirectory_iff_of_relative {s : List Char} (hs : isAbsolute s = false) :
    isDirectory s = true ↔ s.getLast? = some '/' := by
  rw [isDirectory_iff, and_iff_left_iff_imp]
  rintro _ rfl
  cases hs

/-- A relative text becomes absolute exactly when it vanishes. -/
theorem isAbsolute_tidy_of_relative {s : List Char} (hs : isAbsolute s = false) :
    isAbsolute (tidy s) = true ↔ Vanishing s := by
  have hreduced := reduced_fold false s
  rw [tidy_eq_render, hs]
  by_cases hfold : fold false (segments s) = []
  · rw [hfold, isAbsolute_render_nil, Bool.and_eq_true, Bool.not_eq_true',
      isDirectory_iff_of_relative hs]
    exact ⟨fun h => ⟨hs, h.1, h.2, fold_eq_nil_iff.mp hfold⟩, fun h => ⟨h.implicit, h.directory⟩⟩
  · rw [isAbsolute_render_false hreduced hfold]
    exact iff_of_false Bool.false_ne_true fun h => hfold (fold_eq_nil_iff.mpr h.stays)

/-- Nothing but the trailing separator of a vanishing text is written. -/
theorem Vanishing.tidy {s : List Char} (h : Vanishing s) : tidy s = ['/'] := by
  have hdirectory : isDirectory s = true := (isDirectory_iff_of_relative h.relative).mpr h.directory
  rw [tidy_eq_render, h.relative, h.implicit, hdirectory, fold_eq_nil_iff.mpr h.stays]
  rfl

theorem isAbsolute_tidy_of_absolute {s : List Char} (hs : isAbsolute s = true) :
    isAbsolute (tidy s) = true := by
  have hlead : lead true (isExplicit s) (join (fold true (segments s))) ≠ [] :=
    List.cons_ne_nil _ _
  rw [tidy_eq_render, hs, isAbsolute_render hlead]
  rfl

theorem isAbsolute_tidy {s : List Char} :
    isAbsolute (tidy s) = true ↔ isAbsolute s = true ∨ Vanishing s := by
  cases hs : isAbsolute s with
  | true => exact iff_of_true (isAbsolute_tidy_of_absolute hs) (.inl rfl)
  | false =>
    rw [isAbsolute_tidy_of_relative hs]
    exact ⟨.inr, fun h => h.resolve_left Bool.false_ne_true⟩

end Specifier

/-- A normal form is absolute exactly when the specifier is, unless the specifier vanishes: then the
normal form is the root. The same goes for what a name outside of the map is resolved to, which is
the normal form of the name behind its lead. -/
theorem isAbsolute_normalize (path : String) :
    ((isAbsolute (normalize path).toList = true ↔ isAbsolute path.toList = true) ↔
      ¬ Vanishing path.toList) ∧
    (Vanishing path.toList → normalize path = "/") ∧
    ∀ (settings : Settings) (name : String), settings.mode = .normal →
      settings.map.get? name = none → settings.lead.getD defaultPrefix ++ name = path →
      ∃ target, settings.resolve name = some target ∧
        ((isAbsolute target.toList = true → isAbsolute path.toList = true) ↔
          ¬ Vanishing path.toList) := by
  have hnormalize : isAbsolute (normalize path).toList = true ↔
      isAbsolute path.toList = true ∨ Vanishing path.toList := by
    rw [toList_normalize, isAbsolute_tidy]
  have honly : (isAbsolute (normalize path).toList = true → isAbsolute path.toList = true) ↔
      ¬ Vanishing path.toList := by
    constructor
    · intro h hvanishing
      exact ne_true_of_eq_false hvanishing.relative (h (hnormalize.mpr (.inr hvanishing)))
    · exact fun h habsolute => (hnormalize.mp habsolute).resolve_right h
  refine ⟨⟨?_, ?_⟩, ?_, ?_⟩
  · exact fun h => honly.mp h.mp
  · exact fun h => ⟨honly.mpr h, fun habsolute => hnormalize.mpr (.inl habsolute)⟩
  · intro h
    rw [← String.toList_inj, toList_normalize, h.tidy]
    rfl
  · rintro settings name hmode hname rfl
    refine ⟨_, ?_, honly⟩
    rw [Settings.resolve, hname, hmode]

/-- Going into a directory and out of it again vanishes, also when the lead does the first and the
name the second. -/
theorem isAbsolute_normalize_vanishing :
    let settings : Settings := { lead := some "a/" }
    settings.mode = .normal ∧ settings.map.get? "../" = none ∧
      settings.lead.getD defaultPrefix ++ "../" = "a/../" ∧ Vanishing "a/../".toList ∧
      normalize "a/../" = "/" ∧
      ∃ target, settings.resolve "../" = some target ∧
        ¬ (isAbsolute target.toList = true → isAbsolute "a/../".toList = true) := by
  intro settings
  have hlead : settings.lead.getD defaultPrefix ++ "../" = "a/../" := by decide +kernel
  have hfold : fold false (segments "a/../".toList) = [] := by decide +kernel
  have hvanishing : Vanishing "a/../".toList :=
    ⟨by decide +kernel, by decide +kernel, by decide +kernel, fold_eq_nil_iff.mp hfold⟩
  obtain ⟨_, hroot, hresolve⟩ := isAbsolute_normalize "a/../"
  obtain ⟨target, htarget, honly⟩ := hresolve settings "../" rfl rfl hlead
  exact ⟨rfl, rfl, hlead, hvanishing, hroot hvanishing, target, htarget,
    fun h => honly.mp h hvanishing⟩

/-- Being relative is not kept by every normal form. -/
theorem normalize_relative_to_root :
    isAbsolute "a/../".toList = false ∧ isAbsolute (normalize "a/../").toList = true := by
  decide +kernel

end Retarget
