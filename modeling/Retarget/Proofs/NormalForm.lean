import Retarget.Settings

/-!
# Normal forms of specifiers

A specifier is normalised by splitting it into segments, folding these, and writing what is left
with the leading and the trailing part that it had. What is written can be read back: splitting and
folding it again gives the same segments.

Results:
1. `tidy_collapse`: shortening runs of separators beforehand makes no difference.
2. `reduced_fold`: folding leaves `..` segments, none of them in an absolute specifier, and then
   ordinary ones; `fold_of_reduced`: such segments it leaves as they are.
3. `steps_render`, `steps_tidy`: what is written reads back.
4. `normalize_normalize_default`: a normal form behind the default lead is its own normal form.
-/

namespace Retarget

namespace Specifier

/-! ## Definitions -/

/-- A segment that names something: it is neither empty nor `.` nor `..`. -/
structure Ordinary (seg : Segment) : Prop where
  ne_nil : seg ≠ []
  ne_here : seg ≠ here
  ne_up : seg ≠ up
  slash : '/' ∉ seg

/-- Segments that cannot be folded further: `..` segments, none in an absolute specifier, and then
ordinary ones. -/
def Reduced (absolute : Bool) (segs : List Segment) : Prop :=
  ∃ climbing names, segs = List.replicate climbing up ++ names ∧ (∀ seg ∈ names, Ordinary seg) ∧
    (absolute = true → climbing = 0)

/-- The segments of a text that lead somewhere: all but the empty ones and `.`. -/
def steps (s : List Char) : List Segment :=
  (segments s).filter fun seg => seg ≠ [] ∧ seg ≠ here

/-- Writes folded segments with a leading and a trailing part. -/
def render (absolute explicit directory : Bool) (segs : List Segment) : List Char :=
  nonempty (close directory (lead absolute explicit (join segs)))

theorem tidy_eq_render (s : List Char) :
    tidy s = render (isAbsolute s) (isExplicit s) (isDirectory s)
      (fold (isAbsolute s) (segments s)) :=
  rfl

/-! ## Splitting and joining -/

theorem segments_slash (s : List Char) : segments ('/' :: s) = [] :: segments s :=
  if_pos rfl

theorem segments_ne_nil (s : List Char) : segments s ≠ [] := by
  cases s with
  | nil => exact List.cons_ne_nil _ _
  | cons c cs =>
    unfold segments
    split
    · exact List.cons_ne_nil _ _
    · split <;> exact List.cons_ne_nil _ _

/-- A character other than the separator belongs to the first segment. -/
theorem segments_cons {c : Char} (hc : c ≠ '/') {s : List Char} {seg : Segment}
    {rest : List Segment} (h : segments s = seg :: rest) :
    segments (c :: s) = (c :: seg) :: rest := by
  rw [segments, if_neg hc, h]

theorem segments_append (s t : List Char) :
    segments (s ++ '/' :: t) = segments s ++ segments t := by
  induction s with
  | nil => exact segments_slash t
  | cons c cs ih =>
    obtain ⟨seg, rest, hcs⟩ := List.exists_cons_of_ne_nil (segments_ne_nil cs)
    by_cases hc : c = '/'
    · subst hc
      rw [List.cons_append, segments_slash, segments_slash, ih]
      rfl
    · rw [hcs, List.cons_append] at ih
      rw [List.cons_append, segments_cons hc ih, segments_cons hc hcs]
      rfl

theorem segments_of_not_mem {s : List Char} (h : '/' ∉ s) : segments s = [s] := by
  induction s with
  | nil => rfl
  | cons c cs ih =>
    rw [List.mem_cons, not_or] at h
    exact segments_cons (Ne.symm h.1) (ih h.2)

theorem not_mem_of_mem_segments {s : List Char} {seg : Segment} (h : seg ∈ segments s) :
    '/' ∉ seg := by
  induction s generalizing seg with
  | nil =>
    rw [List.mem_singleton.mp h]
    exact List.not_mem_nil
  | cons c cs ih =>
    by_cases hc : c = '/'
    · subst hc
      rw [segments_slash] at h
      rcases List.mem_cons.mp h with rfl | h
      · exact List.not_mem_nil
      · exact ih h
    · obtain ⟨first, rest, hcs⟩ := List.exists_cons_of_ne_nil (segments_ne_nil cs)
      rw [hcs] at ih
      rw [segments_cons hc hcs] at h
      rcases List.mem_cons.mp h with rfl | h
      · rw [List.mem_cons, not_or]
        exact ⟨Ne.symm hc, ih List.mem_cons_self⟩
      · exact ih (List.mem_cons_of_mem first h)

theorem segments_join {segs : List Segment} (hne : segs ≠ []) (h : ∀ seg ∈ segs, '/' ∉ seg) :
    segments (join segs) = segs := by
  induction segs with
  | nil => exact absurd rfl hne
  | cons seg rest ih =>
    have hseg := segments_of_not_mem (h seg List.mem_cons_self)
    cases rest with
    | nil => exact hseg
    | cons next more =>
      have hrest := ih (List.cons_ne_nil _ _) fun other hother =>
        h other (List.mem_cons_of_mem seg hother)
      rw [join, segments_append, hseg, hrest]
      · rfl
      · exact List.cons_ne_nil _ _

/-! ## 1. Runs of separators -/

theorem push_of_idle {absolute : Bool} {stack : List Segment} {seg : Segment}
    (h : seg = [] ∨ seg = here) : push absolute stack seg = stack :=
  if_pos h

theorem collapse_run {cs : List Char} (h : cs.head? = some '/') :
    collapse ('/' :: cs) = collapse cs :=
  if_pos ⟨rfl, h⟩

theorem collapse_cons {c : Char} {cs : List Char} (h : ¬ (c = '/' ∧ cs.head? = some '/')) :
    collapse (c :: cs) = c :: collapse cs :=
  if_neg h

theorem head?_collapse (s : List Char) : (collapse s).head? = s.head? := by
  induction s with
  | nil => rfl
  | cons c cs ih =>
    by_cases h : c = '/' ∧ cs.head? = some '/'
    · obtain ⟨rfl, hcs⟩ := h
      rw [collapse_run hcs, ih, hcs]
      rfl
    · rw [collapse_cons h]
      rfl

theorem getLast?_collapse (s : List Char) : (collapse s).getLast? = s.getLast? := by
  induction s with
  | nil => rfl
  | cons c cs ih =>
    by_cases h : c = '/' ∧ cs.head? = some '/'
    · obtain ⟨rfl, hcs⟩ := h
      cases cs with
      | nil => cases hcs
      | cons d ds => rw [collapse_run hcs, ih, List.getLast?_cons_cons]
    · rw [collapse_cons h, List.getLast?_cons, List.getLast?_cons, ih]

theorem isAbsolute_collapse (s : List Char) : isAbsolute (collapse s) = isAbsolute s := by
  rw [isAbsolute, isAbsolute, head?_collapse]

theorem isExplicit_iff {s : List Char} :
    isExplicit s = true ↔ s.head? = some '.' ∧ s.tail.head? = some '/' := by
  rcases s with _ | ⟨c, _ | ⟨d, ds⟩⟩
  · simp [isExplicit]
  · simp [isExplicit]
  · simp [isExplicit, eq_comm (a := c), eq_comm (a := d)]

theorem isExplicit_collapse (s : List Char) : isExplicit (collapse s) = isExplicit s := by
  rw [Bool.eq_iff_iff, isExplicit_iff, isExplicit_iff, head?_collapse]
  refine and_congr_right fun hhead => ?_
  obtain ⟨cs, rfl⟩ := List.head?_eq_some_iff.mp hhead
  rw [collapse_cons (by simp), List.tail_cons, List.tail_cons, head?_collapse]

theorem isDirectory_iff {s : List Char} :
    isDirectory s = true ↔ s.getLast? = some '/' ∧ s ≠ ['/'] := by
  rcases s with _ | ⟨c, _ | ⟨d, ds⟩⟩
  · simp [isDirectory]
  · simp [isDirectory]
  · simp [isDirectory]

/-- A run of separators makes empty segments only, and these fold away. -/
theorem segments_collapse (absolute : Bool) (s : List Char) :
    ∃ seg rest rest', segments (collapse s) = seg :: rest ∧ segments s = seg :: rest' ∧
      ∀ stack, rest.foldl (push absolute) stack = rest'.foldl (push absolute) stack := by
  -- The first segment is kept apart, since the next character to the left may still belong to it.
  induction s with
  | nil => exact ⟨[], [], [], rfl, rfl, fun _ => rfl⟩
  | cons c cs ih =>
    obtain ⟨seg, rest, rest', hnow, hold, hfold⟩ := ih
    by_cases h : c = '/' ∧ cs.head? = some '/'
    · obtain ⟨rfl, hcs⟩ := h
      obtain ⟨ds, rfl⟩ : ∃ ds, cs = '/' :: ds := by
        cases cs with
        | nil => cases hcs
        | cons d ds => exact ⟨ds, congrArg (· :: ds) (Option.some.inj hcs)⟩
      have hseg : seg = [] := by
        rw [segments_slash] at hold
        exact (List.cons.inj hold).1.symm
      refine ⟨seg, rest, seg :: rest', ?_, ?_, ?_⟩
      · rw [collapse_run hcs, hnow]
      · rw [segments_slash, hold, hseg]
      · intro stack
        rw [List.foldl_cons, push_of_idle (.inl hseg), hfold]
    · rw [collapse_cons h]
      by_cases hc : c = '/'
      · subst hc
        refine ⟨[], seg :: rest, seg :: rest', ?_, ?_, ?_⟩
        · rw [segments_slash, hnow]
        · rw [segments_slash, hold]
        · intro stack
          exact hfold _
      · exact ⟨c :: seg, rest, rest', segments_cons hc hnow, segments_cons hc hold, hfold⟩

theorem fold_collapse (absolute : Bool) (s : List Char) :
    fold absolute (segments (collapse s)) = fold absolute (segments s) := by
  obtain ⟨seg, rest, rest', hnow, hold, hfold⟩ := segments_collapse absolute s
  rw [fold, fold, hnow, hold, List.foldl_cons, List.foldl_cons, hfold]

/-- Whether a text is a directory may be asked of its last character alone: the text that consists of
one separator is written as the root either way. -/
theorem tidy_eq_render_getLast (s : List Char) :
    tidy s = render (isAbsolute s) (isExplicit s) (s.getLast? = some '/')
      (fold (isAbsolute s) (segments s)) := by
  by_cases hroot : s = ['/']
  · rw [hroot]
    rfl
  · have hdirectory : isDirectory s = decide (s.getLast? = some '/') := by
      rw [Bool.eq_iff_iff, isDirectory_iff, decide_eq_true_iff, and_iff_left hroot]
    rw [tidy_eq_render, hdirectory]

/-- Shortening the runs of separators beforehand makes no difference. -/
theorem tidy_collapse (s : List Char) : tidy (collapse s) = tidy s := by
  rw [tidy_eq_render_getLast, tidy_eq_render_getLast, isAbsolute_collapse, isExplicit_collapse,
    getLast?_collapse, fold_collapse]

/-! ## 2. Folded segments -/

theorem Ordinary.not_idle {seg : Segment} (h : Ordinary seg) : ¬ (seg = [] ∨ seg = here) := by
  rintro (hnil | hhere)
  · exact h.ne_nil hnil
  · exact h.ne_here hhere

theorem Ordinary.push {absolute : Bool} {stack : List Segment} {seg : Segment} (h : Ordinary seg) :
    push absolute stack seg = seg :: stack := by
  unfold Specifier.push
  rw [if_neg h.not_idle, if_neg h.ne_up]

/-- Whatever puts ordinary segments on top of the stack puts all of them there, the last on top. -/
theorem foldl_ordinary {g : List Segment → Segment → List Segment}
    (hg : ∀ {stack : List Segment} {seg : Segment}, Ordinary seg → g stack seg = seg :: stack)
    {names : List Segment} (h : ∀ seg ∈ names, Ordinary seg) (stack : List Segment) :
    names.foldl g stack = names.reverse ++ stack := by
  induction names generalizing stack with
  | nil => rfl
  | cons seg rest ih =>
    have hrest := ih (fun other hother => h other (List.mem_cons_of_mem seg hother)) (seg :: stack)
    rw [List.foldl_cons, hg (h seg List.mem_cons_self), hrest, List.reverse_cons,
      List.append_assoc]
    rfl

/-- A `..` on nothing but others stays. -/
theorem push_up_climbing (climbing : Nat) :
    push false (List.replicate climbing up) up = List.replicate (climbing + 1) up := by
  cases climbing <;> rfl

theorem foldl_push_up (climbing more : Nat) :
    (List.replicate more up).foldl (push false) (List.replicate climbing up) =
      List.replicate (climbing + more) up := by
  induction more generalizing climbing with
  | zero => rfl
  | succ more ih =>
    rw [List.replicate_succ, List.foldl_cons, push_up_climbing, ih, Nat.add_right_comm]
    rfl

/-- Reduced segments fold to themselves. -/
theorem fold_of_reduced {absolute : Bool} {segs : List Segment} (h : Reduced absolute segs) :
    fold absolute segs = segs := by
  obtain ⟨climbing, names, rfl, hnames, habsolute⟩ := h
  have hclimbing : (List.replicate climbing up).foldl (push absolute) [] =
      List.replicate climbing up := by
    cases absolute with
    | true =>
      rw [habsolute rfl]
      rfl
    | false =>
      have hup := foldl_push_up 0 climbing
      rwa [Nat.zero_add] at hup
  rw [fold, List.foldl_append, hclimbing, foldl_ordinary Ordinary.push hnames, List.reverse_append,
    List.reverse_reverse, List.reverse_replicate]

/-- One more segment on a reduced stack, whose top is the last segment. -/
theorem reduced_push {absolute : Bool} {stack : List Segment} {seg : Segment}
    (hseg : '/' ∉ seg) (h : Reduced absolute stack.reverse) :
    Reduced absolute (push absolute stack seg).reverse := by
  by_cases hidle : seg = [] ∨ seg = here
  · rw [push_of_idle hidle]
    exact h
  obtain ⟨climbing, names, hstack, hnames, habsolute⟩ := h
  rw [List.reverse_eq_iff, List.reverse_append, List.reverse_replicate] at hstack
  subst hstack
  by_cases hup : seg = up
  · subst hup
    cases hlast : names.reverse with
    | nil =>
      -- Nothing is there to take back: the root has nothing above it, other texts climb one more.
      cases absolute with
      | true =>
        rw [habsolute rfl]
        exact ⟨0, [], rfl, List.forall_mem_nil _, fun _ => rfl⟩
      | false =>
        rw [List.nil_append, push_up_climbing, List.reverse_replicate]
        exact ⟨climbing + 1, [], (List.append_nil _).symm, List.forall_mem_nil _, by simp⟩
    | cons top below =>
      -- An ordinary segment is on top, and the `..` takes it back.
      have htop : Ordinary top := hnames top (by
        rw [← List.mem_reverse, hlast]
        exact List.mem_cons_self)
      have hpush : push absolute (top :: below ++ List.replicate climbing up) up =
          below ++ List.replicate climbing up := by
        rw [List.cons_append, push, if_neg (by decide), if_pos rfl]
        exact if_neg htop.ne_up
      rw [hpush, List.reverse_append, List.reverse_replicate]
      refine ⟨climbing, below.reverse, rfl, ?_, habsolute⟩
      intro other hother
      apply hnames other
      rw [← List.mem_reverse, hlast]
      exact List.mem_cons_of_mem top (List.mem_reverse.mp hother)
  · rw [not_or] at hidle
    have hordinary : Ordinary seg := ⟨hidle.1, hidle.2, hup, hseg⟩
    rw [hordinary.push, List.reverse_cons, List.reverse_append, List.reverse_replicate,
      List.reverse_reverse, List.append_assoc]
    refine ⟨climbing, names ++ [seg], rfl, ?_, habsolute⟩
    intro other hother
    rcases List.mem_append.mp hother with hother | hother
    · exact hnames other hother
    · rw [List.mem_singleton.mp hother]
      exact hordinary

theorem reduced_foldl {absolute : Bool} {segs stack : List Segment}
    (hsegs : ∀ seg ∈ segs, '/' ∉ seg) (h : Reduced absolute stack.reverse) :
    Reduced absolute (segs.foldl (push absolute) stack).reverse := by
  induction segs generalizing stack with
  | nil => exact h
  | cons seg rest ih =>
    have hrest : ∀ other ∈ rest, '/' ∉ other :=
      fun other hother => hsegs other (List.mem_cons_of_mem seg hother)
    exact ih hrest (reduced_push (hsegs seg List.mem_cons_self) h)

/-- What folding leaves is reduced. -/
theorem reduced_fold (absolute : Bool) (s : List Char) :
    Reduced absolute (fold absolute (segments s)) := by
  apply reduced_foldl fun seg hseg => not_mem_of_mem_segments hseg
  exact ⟨0, [], rfl, List.forall_mem_nil _, fun _ => rfl⟩

/-! ## 3. Reading back -/

theorem Reduced.slash {absolute : Bool} {segs : List Segment} (h : Reduced absolute segs) :
    ∀ seg ∈ segs, '/' ∉ seg := by
  obtain ⟨climbing, names, rfl, hnames, _⟩ := h
  intro seg hseg
  rcases List.mem_append.mp hseg with hseg | hseg
  · rw [(List.mem_replicate.mp hseg).2]
    decide
  · exact (hnames seg hseg).slash

/-- Whoever goes through the segments of a text and does nothing at empty ones and at `.` may as well
go through its steps. -/
theorem foldl_steps {α : Type} {f : α → Segment → α}
    (h : ∀ a seg, seg = [] ∨ seg = here → f a seg = a) (a : α) (s : List Char) :
    (steps s).foldl f a = (segments s).foldl f a := by
  have hidle : (fun a seg => if decide (seg ≠ [] ∧ seg ≠ here) = true then f a seg else a) = f := by
    funext a seg
    by_cases hseg : seg = [] ∨ seg = here
    · rw [h a seg hseg, ite_self]
    · rw [not_or] at hseg
      exact if_pos (decide_eq_true hseg)
  rw [steps, List.foldl_filter, hidle]

theorem fold_steps (absolute : Bool) (s : List Char) :
    fold absolute (steps s) = fold absolute (segments s) := by
  rw [fold, fold, foldl_steps fun stack seg => push_of_idle]

theorem steps_append (s t : List Char) : steps (s ++ '/' :: t) = steps s ++ steps t := by
  rw [steps, segments_append, List.filter_append]
  rfl

theorem steps_slash (s : List Char) : steps ('/' :: s) = steps s :=
  steps_append [] s

theorem steps_explicit (s : List Char) : steps ('.' :: '/' :: s) = steps s :=
  steps_append ['.'] s

theorem Reduced.leads {absolute : Bool} {segs : List Segment} (h : Reduced absolute segs) :
    ∀ seg ∈ segs, seg ≠ [] ∧ seg ≠ here := by
  obtain ⟨climbing, names, rfl, hnames, _⟩ := h
  intro seg hseg
  rcases List.mem_append.mp hseg with hseg | hseg
  · rw [(List.mem_replicate.mp hseg).2]
    decide
  · exact ⟨(hnames seg hseg).ne_nil, (hnames seg hseg).ne_here⟩

theorem steps_join {absolute : Bool} {segs : List Segment} (h : Reduced absolute segs) :
    steps (join segs) = segs := by
  by_cases hne : segs = []
  · rw [hne]
    rfl
  · rw [steps, segments_join hne h.slash, List.filter_eq_self]
    exact fun seg hseg => decide_eq_true (h.leads seg hseg)

theorem steps_lead (absolute explicit : Bool) (body : List Char) :
    steps (lead absolute explicit body) = steps body := by
  unfold lead
  split
  · rw [steps_slash]
  · split
    · rw [steps_explicit]
    · rfl

theorem steps_close (directory : Bool) (out : List Char) :
    steps (close directory out) = steps out := by
  unfold close
  split
  · rw [steps_append]
    exact List.append_nil _
  · rfl

theorem steps_nonempty (out : List Char) : steps (nonempty out) = steps out := by
  unfold nonempty
  split
  · next h =>
    rw [h]
    rfl
  · rfl

/-- Reduced segments are the steps of what is written of them, whatever the leading and the trailing
part. -/
theorem steps_render {absolute : Bool} {segs : List Segment} (h : Reduced absolute segs)
    (explicit directory : Bool) : steps (render absolute explicit directory segs) = segs := by
  rw [render, steps_nonempty, steps_close, steps_lead, steps_join h]

/-- The steps of a normal form are the folded segments. -/
theorem steps_tidy (s : List Char) : steps (tidy s) = fold (isAbsolute s) (segments s) := by
  rw [tidy_eq_render, steps_render (reduced_fold _ s)]

/-! ## 4. Normal forms behind the default lead -/

theorem lead_explicit_ne_nil (body : List Char) : lead false true body ≠ [] := by
  cases h : climbs body with
  | false =>
    rw [lead, h]
    exact List.cons_ne_nil _ _
  | true =>
    rw [lead, h]
    rintro rfl
    cases h

/-- A text that ends in a separator is closed already. -/
theorem close_of_slash {out : List Char} (h : out.getLast? = some '/') (directory : Bool) :
    close directory out = out := by
  rw [close, h]
  cases directory <;> rfl

theorem close_false (out : List Char) : close false out = out :=
  rfl

theorem close_true {out : List Char} (h : out.getLast? ≠ some '/') :
    close true out = out ++ ['/'] :=
  if_pos (bne_iff_ne.mpr h)

/-- Whether a text was a directory can be told from how it has been written. -/
theorem close_close (directory : Bool) (out : List Char) :
    close ((close directory out).getLast? = some '/') out = close directory out := by
  by_cases hlast : out.getLast? = some '/'
  · rw [close_of_slash hlast, close_of_slash hlast]
  · cases directory with
    | false => rw [close_false, decide_eq_false hlast, close_false]
    | true =>
      rw [close_true hlast, List.getLast?_append, List.getLast?_singleton, Option.some_or,
        decide_eq_true rfl, close_true hlast]

theorem close_ne_nil {out : List Char} (h : out ≠ []) (directory : Bool) :
    close directory out ≠ [] := by
  unfold close
  split
  · exact List.append_ne_nil_of_left_ne_nil h _
  · exact h

theorem render_explicit (directory : Bool) (segs : List Segment) :
    render false true directory segs = close directory (lead false true (join segs)) :=
  if_neg (close_ne_nil (lead_explicit_ne_nil _) directory)

theorem isDirectory_explicit {s : List Char} (h : s ≠ []) :
    isDirectory ('.' :: '/' :: s) = decide (s.getLast? = some '/') := by
  obtain ⟨c, cs, rfl⟩ := List.exists_cons_of_ne_nil h
  rw [isDirectory, List.getLast?_cons_cons, List.getLast?_cons_cons]
  exact Bool.true_and _

/-- An explicitly relative normal form behind one more `./` is its own normal form. -/
theorem tidy_explicit_tidy (s : List Char) :
    tidy ('.' :: '/' :: tidy ('.' :: '/' :: s)) = tidy ('.' :: '/' :: s) := by
  have hreduced := reduced_fold false ('.' :: '/' :: s)
  have htidy : tidy ('.' :: '/' :: s) = render false true (isDirectory ('.' :: '/' :: s))
      (fold false (segments ('.' :: '/' :: s))) := rfl
  -- All that is known of the first normal form from here on is what it has been written from.
  generalize isDirectory ('.' :: '/' :: s) = directory at htidy
  generalize fold false (segments ('.' :: '/' :: s)) = segs at htidy hreduced
  have hout : render false true directory segs ≠ [] := by
    rw [render_explicit]
    exact close_ne_nil (lead_explicit_ne_nil _) directory
  rw [htidy]
  show render false true (isDirectory ('.' :: '/' :: render false true directory segs))
    (fold false (segments ('.' :: '/' :: render false true directory segs))) = _
  rw [← fold_steps, steps_explicit, steps_render hreduced, fold_of_reduced hreduced,
    isDirectory_explicit hout, render_explicit, render_explicit, close_close]

end Specifier

/-- A normal form behind the default lead is its own normal form. -/
theorem normalize_normalize_default (name : String) :
    normalize (defaultPrefix ++ normalize (defaultPrefix ++ name)) =
      normalize (defaultPrefix ++ name) := by
  have hlead : defaultPrefix.toList = ['.', '/'] := rfl
  rw [normalize, normalize, Specifier.tidy_collapse, Specifier.tidy_collapse,
    String.toList_append, String.toList_append, String.toList_ofList, hlead]
  exact congrArg String.ofList (Specifier.tidy_explicit_tidy name.toList)

end Retarget
