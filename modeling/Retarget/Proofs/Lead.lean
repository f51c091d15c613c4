import Retarget.Proofs.Canonical
import Retarget.Proofs.Layout

/-!
# Names behind a lead

A name that is not in the map is written behind the lead, and the two are normalised as one text. If
the lead is empty or ends in a separator, the steps of that text are the steps of the lead and then
those of the name. A name that goes inward, which is one whose `..` segments only take back segments
of its own, stays below the lead. Any name may be put behind the normal form of the lead instead,
unless that is absolute and the lead is not.

Results:
1. `steps_append_of_separate`, `walk_append`: what the lead and the name make up together.
2. `foldl_push_inward`, `fold_append_inward`: a name that goes inward is folded on its own.
3. `resolve_inward`: the steps of the resolved name are those of the lead and then those of the name.
4. `tidy_tidy_append`, `normalize_normalize_append_iff`: the lead may be normalised beforehand.
-/

namespace Retarget

namespace Specifier

/-! ## Definitions -/

/-- Going along the segments from a stack of names, no `..` is met when nothing is on the stack. -/
def Inward : List Segment → List Segment → Prop
  | _, [] => True
  | stack, seg :: rest => (seg = up → stack ≠ []) ∧ Inward (enter stack seg) rest

instance decidableInward : (stack segs : List Segment) → Decidable (Inward stack segs)
  | _, [] => .isTrue trivial
  | stack, seg :: rest =>
    have := decidableInward (enter stack seg) rest
    inferInstanceAs (Decidable ((seg = up → stack ≠ []) ∧ Inward (enter stack seg) rest))

/-- A text behind which a name begins a segment of its own. -/
def Separate (s : List Char) : Prop :=
  s = [] ∨ s.getLast? = some '/'

/-! ## 1. Two texts in one -/

theorem steps_append_of_separate {s : List Char} (hs : Separate s) (t : List Char) :
    steps (s ++ t) = steps s ++ steps t := by
  rcases hs with rfl | hs
  · rfl
  · obtain ⟨u, rfl⟩ := List.getLast?_eq_some_iff.mp hs
    have hclosed : steps (u ++ ['/']) = steps u := (steps_append u []).trans (List.append_nil _)
    rw [List.append_assoc, List.singleton_append, steps_append, hclosed]

/-- Whoever walks along both texts walks along the second one from where the first one leads. -/
theorem walk_append {s : List Char} (hs : Separate s) (base : List Segment) (t : List Char) :
    walk base (s ++ t) = walk (walk base s) t := by
  rw [← walk_steps, steps_append_of_separate hs, List.foldl_append, walk_steps, walk_steps]

theorem isAbsolute_append {s : List Char} (hs : s ≠ []) (t : List Char) :
    isAbsolute (s ++ t) = isAbsolute s := by
  obtain ⟨c, cs, rfl⟩ := List.exists_cons_of_ne_nil hs
  rfl

theorem isExplicit_append {s : List Char} (hs : s.getLast? = some '/') (t : List Char) :
    isExplicit (s ++ t) = isExplicit s := by
  rcases s with _ | ⟨c, _ | ⟨d, ds⟩⟩
  · cases hs
  · cases hs
    rfl
  · rfl

/-! ## 2. Names that go inward -/

theorem ordinary_enter {stack : List Segment} {seg : Segment} (hslash : '/' ∉ seg)
    (h : ∀ name ∈ stack, Ordinary name) : ∀ name ∈ enter stack seg, Ordinary name := by
  unfold enter
  split
  · exact h
  · next hidle =>
    split
    · exact fun name hname => h name (List.mem_of_mem_tail hname)
    · next hup =>
      rw [not_or] at hidle
      exact List.forall_mem_cons.mpr ⟨⟨hidle.1, hidle.2, hup, hslash⟩, h⟩

/-- On a stack with ordinary names on top, folding a segment is walking along it, as long as a `..`
finds one of these names. What lies below stays. -/
theorem push_inward {absolute : Bool} {stack : List Segment} {seg : Segment}
    (hnames : ∀ name ∈ stack, Ordinary name) (h : seg = up → stack ≠ []) (below : List Segment) :
    push absolute (stack ++ below) seg = enter stack seg ++ below := by
  unfold push enter
  split
  · rfl
  · split
    · next hup =>
      obtain ⟨top, rest, rfl⟩ := List.exists_cons_of_ne_nil (h hup)
      exact if_neg (hnames top List.mem_cons_self).ne_up
    · rfl

theorem foldl_push_inward {absolute : Bool} {stack segs : List Segment}
    (hnames : ∀ name ∈ stack, Ordinary name) (hslash : ∀ seg ∈ segs, '/' ∉ seg)
    (h : Inward stack segs) (below : List Segment) :
    segs.foldl (push absolute) (stack ++ below) = segs.foldl enter stack ++ below := by
  induction segs generalizing stack with
  | nil => rfl
  | cons seg rest ih =>
    obtain ⟨hseg, hrest⟩ := List.forall_mem_cons.mp hslash
    rw [List.foldl_cons, List.foldl_cons, push_inward hnames h.1]
    exact ih (ordinary_enter hseg hnames) hrest h.2

theorem ordinary_foldl_enter {stack segs : List Segment} (hslash : ∀ seg ∈ segs, '/' ∉ seg)
    (hnames : ∀ name ∈ stack, Ordinary name) : ∀ name ∈ segs.foldl enter stack, Ordinary name := by
  induction segs generalizing stack with
  | nil => exact hnames
  | cons seg rest ih =>
    obtain ⟨hseg, hrest⟩ := List.forall_mem_cons.mp hslash
    exact ih hrest (ordinary_enter hseg hnames)

/-- A text that goes inward is folded to the names to which it leads from the root, on top of whatever
has been folded before. -/
theorem fold_append_inward {absolute : Bool} {s t : List Char} (hs : Separate s)
    (ht : Inward [] (segments t)) :
    fold absolute (segments (s ++ t)) = fold absolute (segments s) ++ (walk [] t).reverse := by
  have hsegs : (segments t).foldl (push absolute) ((segments s).foldl (push absolute) []) =
      walk [] t ++ (segments s).foldl (push absolute) [] :=
    foldl_push_inward (List.forall_mem_nil _) (fun _ => not_mem_of_mem_segments) ht _
  have hidle : ∀ stack seg, seg = [] ∨ seg = here → push absolute stack seg = stack :=
    fun _ _ => push_of_idle
  rw [← fold_steps, fold, steps_append_of_separate hs, List.foldl_append, foldl_steps hidle,
    foldl_steps hidle, hsegs, List.reverse_append]
  rfl

theorem steps_tidy_append {s t : List Char} (hs : Separate s) (ht : Inward [] (segments t)) :
    steps (tidy (s ++ t)) = steps (tidy s) ++ (walk [] t).reverse := by
  rw [steps_tidy, steps_tidy, fold_append_inward hs ht]
  -- Behind an empty lead the name says whether the whole is absolute, which does not matter then.
  by_cases hnil : s = []
  · subst hnil
    rfl
  · rw [isAbsolute_append hnil]

/-- On its own, a text that goes inward leads from the root down its steps. -/
theorem steps_tidy_inward {s : List Char} (h : Inward [] (segments s)) :
    steps (tidy s) = (walk [] s).reverse :=
  steps_tidy_append (.inl rfl) h

end Specifier

open Specifier

/-! ## 3. Names below their lead -/

theorem toList_normalize_append (lead name : String) :
    (normalize (lead ++ name)).toList = tidy (lead.toList ++ name.toList) := by
  rw [toList_normalize, String.toList_append]

/-- A name outside of the map that goes inward is resolved to a specifier whose steps are those of
the lead and then those of the name, so that wherever the lead leads, the specifier leads there or
further down. -/
theorem resolve_inward (settings : Settings) (name : String) (hmode : settings.mode = .normal)
    (hname : settings.map.get? name = none)
    (hlead : Separate (settings.lead.getD defaultPrefix).toList)
    (hinward : Inward [] (segments name.toList)) :
    let lead := settings.lead.getD defaultPrefix
    ∃ target, settings.resolve name = some target ∧
      steps target.toList = steps (normalize lead).toList ++ steps (normalize name).toList ∧
      ∀ base, (isAbsolute lead.toList = true → base = []) →
        walk base lead.toList <:+ walk base target.toList := by
  intro lead
  have hsteps : steps (normalize (lead ++ name)).toList =
      steps (normalize lead).toList ++ (walk [] name.toList).reverse := by
    rw [toList_normalize_append, toList_normalize, steps_tidy_append hlead hinward]
  refine ⟨normalize (lead ++ name), ?_, ?_, ?_⟩
  · rw [Settings.resolve, hname, hmode]
  · rw [hsteps, toList_normalize name, steps_tidy_inward hinward]
  · intro base hbase
    have hnames : ∀ seg ∈ (walk [] name.toList).reverse, Ordinary seg := by
      intro seg hseg
      exact ordinary_foldl_enter (fun _ => not_mem_of_mem_segments) (List.forall_mem_nil _) seg
        (List.mem_reverse.mp hseg)
    rw [← walk_steps base (normalize _).toList, hsteps, List.foldl_append, walk_steps,
      toList_normalize, walk_tidy hbase, foldl_ordinary Ordinary.enter hnames]
    exact List.suffix_append _ _

/-- A name that begins with a separator and goes into a directory and out of it again stays below a
lead that climbs. -/
theorem resolve_inward_climbing :
    let settings : Settings := { lead := some "./../lib//" }
    settings.mode = .normal ∧ settings.map.get? "/a/.././b//c" = none ∧
      Separate "./../lib//".toList ∧ Inward [] (segments "/a/.././b//c".toList) ∧
      settings.resolve "/a/.././b//c" = some "../lib/b/c" ∧
      ∃ target, settings.resolve "/a/.././b//c" = some target ∧
        steps target.toList =
          steps (normalize "./../lib//").toList ++ steps (normalize "/a/.././b//c").toList ∧
        ∀ base, (isAbsolute "./../lib//".toList = true → base = []) →
          walk base "./../lib//".toList <:+ walk base target.toList := by
  intro settings
  have hlead : Separate "./../lib//".toList := .inr (by decide +kernel)
  have hinward : Inward [] (segments "/a/.././b//c".toList) := by decide +kernel
  exact ⟨rfl, rfl, hlead, hinward, by decide +kernel,
    resolve_inward settings _ rfl rfl hlead hinward⟩

/-! ## 4. Normalising the lead beforehand -/

namespace Specifier

/-- Nothing takes a `..` off the stack. -/
theorem up_mem_push {absolute : Bool} {stack : List Segment} (h : up ∈ stack) (seg : Segment) :
    up ∈ push absolute stack seg := by
  unfold push
  split
  · exact h
  · split
    · cases stack with
      | nil => exact absurd h List.not_mem_nil
      | cons top below =>
        by_cases htop : top = up
        · cases absolute <;> simp [htop]
        · simpa [htop, Ne.symm htop] using h
    · exact List.mem_cons_of_mem seg h

theorem up_mem_foldl_push {absolute : Bool} {stack : List Segment} (h : up ∈ stack)
    (segs : List Segment) : up ∈ segs.foldl (push absolute) stack := by
  induction segs generalizing stack with
  | nil => exact h
  | cons seg rest ih => exact ih (up_mem_push h seg)

/-- A text that climbs goes on climbing, whatever is written behind it. -/
theorem up_mem_fold_append {absolute : Bool} {s : List Char} (hs : Separate s)
    (h : up ∈ fold absolute (segments s)) (t : List Char) :
    up ∈ fold absolute (segments (s ++ t)) := by
  rw [← fold_steps, fold, List.mem_reverse] at h
  rw [← fold_steps, fold, steps_append_of_separate hs, List.foldl_append, List.mem_reverse]
  exact up_mem_foldl_push h _

/-- What climbs is written without `./`, whether or not it was explicitly relative. -/
theorem render_climbing {absolute : Bool} {segs : List Segment} (h : Reduced absolute segs)
    (hup : up ∈ segs) (explicit other directory : Bool) :
    render absolute explicit directory segs = render absolute other directory segs := by
  have hclimbs := (climbs_join h).mpr hup
  simp [render, lead, hclimbs]

/-- An explicitly relative text that does not climb stays explicitly relative. -/
theorem isExplicit_tidy {s : List Char} (h : up ∉ fold (isAbsolute s) (segments s)) :
    isExplicit (tidy s) = isExplicit s := by
  cases hs : isExplicit s with
  | false => exact isExplicit_tidy_of_not hs
  | true =>
    have hrelative := isAbsolute_of_isExplicit hs
    have hclimbs : climbs (join (fold false (segments s))) = false := by
      rw [Bool.eq_false_iff, ne_eq, climbs_join (reduced_fold false s), ← hrelative]
      exact h
    rw [tidy_eq_render, isExplicit_render (reduced_fold _ s), hs, hrelative]
    simp [opening, hclimbs]

theorem getLast?_tidy {s : List Char} (h : s.getLast? = some '/') :
    (tidy s).getLast? = some '/' := by
  rw [tidy_eq_render_getLast]
  exact (getLast?_render (reduced_fold _ s) _ _).mpr (.inl (decide_eq_true h))

theorem ne_nil_of_getLast? {s : List Char} (h : s.getLast? = some '/') : s ≠ [] := by
  rintro rfl
  cases h

section Directory

variable {s : List Char} (hs : s.getLast? = some '/')
include hs

theorem isAbsolute_tidy_append (t : List Char) :
    isAbsolute (tidy s ++ t) = isAbsolute (tidy s) :=
  isAbsolute_append (ne_nil_of_getLast? (getLast?_tidy hs)) t

theorem samePlaces_tidy_append (habsolute : isAbsolute (tidy s) = isAbsolute s) (t : List Char) :
    SamePlaces (tidy s ++ t) (s ++ t) := by
  intro base _ hroot
  rw [isAbsolute_tidy_append hs, habsolute] at hroot
  rw [walk_append (.inr (getLast?_tidy hs)), walk_append (.inr hs), walk_tidy hroot]

/-- A lead may be normalised beforehand if that keeps it relative or absolute. -/
theorem tidy_tidy_append (habsolute : isAbsolute (tidy s) = isAbsolute s) (t : List Char) :
    tidy (tidy s ++ t) = tidy (s ++ t) := by
  have hplaces := samePlaces_tidy_append hs habsolute t
  have hkind : isAbsolute (tidy s ++ t) = isAbsolute (s ++ t) := by
    rw [isAbsolute_tidy_append hs, habsolute, isAbsolute_append (ne_nil_of_getLast? hs)]
  have hlast : (tidy s ++ t).getLast? = (s ++ t).getLast? := by
    rw [List.getLast?_append, List.getLast?_append, hs, getLast?_tidy hs]
  by_cases hup : up ∈ fold (isAbsolute s) (segments s)
  · -- A `./` may be lost with the normalisation of the lead, but it would not be written anyway.
    have hclimbing : up ∈ fold (isAbsolute (s ++ t)) (segments (s ++ t)) := by
      rw [isAbsolute_append (ne_nil_of_getLast? hs)]
      exact up_mem_fold_append (.inr hs) hup t
    rw [tidy_eq_render_getLast (tidy s ++ t), tidy_eq_render_getLast (s ++ t),
      fold_eq_of_samePlaces hplaces, hkind, hlast]
    exact render_climbing (reduced_fold _ _) hclimbing _ _ _
  · apply tidy_eq_of_samePlaces ⟨hkind, ?_, by rw [hlast]⟩ hplaces
    rw [isExplicit_append (getLast?_tidy hs), isExplicit_append hs, isExplicit_tidy hup]

/-- A relative lead whose normal form is the root makes another name of `a` than the root does. -/
theorem isAbsolute_of_tidy_tidy_append (h : ∀ t, tidy (tidy s ++ t) = tidy (s ++ t))
    (habsolute : isAbsolute (tidy s) = true) : isAbsolute s = true := by
  have hroot : isAbsolute (tidy (tidy s ++ ['a'])) = true := by
    apply isAbsolute_tidy_of_absolute
    rw [isAbsolute_tidy_append hs, habsolute]
  rw [h, isAbsolute_tidy] at hroot
  rcases hroot with hlead | hvanishing
  · rwa [isAbsolute_append (ne_nil_of_getLast? hs)] at hlead
  · have hslash := hvanishing.directory
    rw [List.getLast?_append] at hslash
    cases hslash

end Directory

end Specifier

/-- The lead may be normalised beforehand: every name gets the same normal form and is resolved in the
same way, whatever the map and the mode. This holds of a lead that ends in a separator exactly when
its normal form is absolute only if the lead is. -/
theorem normalize_normalize_append_iff (lead : String) (hlead : lead.toList.getLast? = some '/') :
    (isAbsolute (normalize lead).toList = true → isAbsolute lead.toList = true) ↔
      (∀ name, normalize (normalize lead ++ name) = normalize (lead ++ name)) ∧
      ∀ (settings : Settings) (name : String),
        ({ settings with lead := some (normalize lead) } : Settings).resolve name =
          ({ settings with lead := some lead } : Settings).resolve name := by
  have hnames : (∀ name, normalize (normalize lead ++ name) = normalize (lead ++ name)) ↔
      ∀ t, tidy (tidy lead.toList ++ t) = tidy (lead.toList ++ t) := by
    constructor
    · intro h t
      have ht := congrArg String.toList (h (String.ofList t))
      rwa [toList_normalize_append, toList_normalize_append, toList_normalize,
        String.toList_ofList] at ht
    · intro h name
      rw [← String.toList_inj, toList_normalize_append, toList_normalize_append, toList_normalize,
        h]
  constructor
  · intro h
    have habsolute : isAbsolute (tidy lead.toList) = isAbsolute lead.toList := by
      rw [toList_normalize] at h
      rw [Bool.eq_iff_iff]
      exact ⟨h, isAbsolute_tidy_of_absolute⟩
    have hsame := hnames.mpr (tidy_tidy_append hlead habsolute)
    refine ⟨hsame, fun settings name => ?_⟩
    simp only [Settings.resolve, Option.getD_some, hsame]
  · rintro ⟨hsame, _⟩
    rw [toList_normalize]
    exact isAbsolute_of_tidy_tidy_append hlead (hnames.mp hsame)

/-- A lead that loses its `./` may be normalised beforehand, and one whose normal form is the root may
not. -/
theorem normalize_normalize_append_climbing :
    "./../lib//".toList.getLast? = some '/' ∧ isAbsolute (normalize "./../lib//").toList = false ∧
      normalize "./../lib//" = "../lib/" ∧
      ((∀ name, normalize (normalize "./../lib//" ++ name) = normalize ("./../lib//" ++ name)) ∧
        ∀ (settings : Settings) (name : String),
          ({ settings with lead := some (normalize "./../lib//") } : Settings).resolve name =
            ({ settings with lead := some "./../lib//" } : Settings).resolve name) ∧
      normalize (normalize "a/../" ++ "x") = "/x" ∧ normalize ("a/../" ++ "x") = "x" := by
  have hlead : "./../lib//".toList.getLast? = some '/' := by decide +kernel
  have hrelative : isAbsolute (normalize "./../lib//").toList = false := by decide +kernel
  have hsame := (normalize_normalize_append_iff "./../lib//" hlead).mp fun h =>
    absurd h (ne_true_of_eq_false hrelative)
  exact ⟨hlead, hrelative, by decide +kernel, hsame, by decide +kernel, by decide +kernel⟩

end Retarget
