import Retarget.Proofs.Amendment

/-!
# Chains of mock helpers

Mock helpers are often called one on the other, as in `jest.dontMock("a").dontMock("b")`. The callee
of a link holds all links before it with their arguments, and none of the link's own arguments. So a
link is a mock helper exactly if the framework is named in the receiver of the chain or in the
arguments of a link before it, and then so are all links behind it.

Results:
1. `mem_identifiers_chain`: where the framework can be named in a chain; `Link.ofCallee?_callee`: the
   kind of a link by the object on which it is called.
2. `Link.kind_eq`, `Link.visit_attach`: a pass finds a link to be what it was before, and settles it on
   what it has made of the object.
3. `settled_chain`, `visit_chain`: a pass over a chain settles each link by what stood before it.
-/

namespace Retarget

/-! ## Definitions -/

/-- A link of a chain: the call of a mock helper, without type arguments, on whatever stands before
it. The three spans are those of the call, of the member access and of the helper's name. -/
structure Link where
  span : Span
  access : Span
  word : Span
  helper : String
  known : helper ∈ ["dontMock", "mock", "genMockFromModule"]
  arguments : Tree .items
  marks : List Mark

namespace Link

/-- The callee of a link on an object. -/
def callee (link : Link) (object : Node) : Node :=
  .member link.access object (.ident link.word link.helper .noField)

/-- Calls a link on an object. -/
def attach (object : Node) (link : Link) : Node :=
  .call link.span (link.callee object) link.arguments (.atom .null) link.marks

/-- The link as a call on an object. -/
def call (link : Link) (object : Node) : Call :=
  ⟨link.span, link.callee object, link.arguments, .atom .null, link.marks⟩

/-- The kind that a pass finds a link to be of when it settles it: the object has been visited. -/
def kind (settings : Settings) (mark : Mark) (object : Node) (link : Link) : Option Reference :=
  Reference.ofCallee? ((link.callee object).visit settings mark).result

/-- The name at which the first argument of a link is pointed: a link has one only if it is a mock
helper. -/
def target (settings : Settings) (helps : Bool) (link : Link) : Option String :=
  if helps then link.arguments.literal?.bind settings.resolve else none

/-- A link after a pass that had not processed it. -/
def settled (settings : Settings) (mark : Mark) (helps : Bool) (link : Link) : Link :=
  { link with
    arguments := (link.arguments.visit settings mark).result.point (link.target settings helps)
    marks := link.marks ++ [mark] }

/-- What a pass logs at a link that it had not processed: nothing unless it is a mock helper. -/
def report (settings : Settings) (helps : Bool) (link : Link) : List Event :=
  if helps then
    [(link.arguments.literal?.bind fun old =>
      (settings.resolve old).map (.retargeted .mockHelper old)).getD (.unchanged .mockHelper)]
  else []

end Link

/-- Calls links one on the other, the first one on a receiver. -/
def chain (receiver : Node) (links : List Link) : Node :=
  links.foldl Link.attach receiver

/-- The framework, `jest`, is named in the receiver or in the arguments of a link. -/
def Named (receiver : Node) (links : List Link) : Prop :=
  "jest" ∈ receiver.identifiers ∨ ∃ link ∈ links, "jest" ∈ link.arguments.identifiers

instance (receiver : Node) (links : List Link) : Decidable (Named receiver links) :=
  inferInstanceAs (Decidable (_ ∨ _))

/-! ## 1. The kind of a link -/

namespace Link

variable (link : Link) (object : Node)

theorem mem_helpers : link.helper ∈ Reference.helpers :=
  link.known

theorem helper_ne {name : String} (h : name ∉ Reference.helpers) : link.helper ≠ name := by
  rintro rfl
  exact h link.mem_helpers

theorem mem_identifiers_callee :
    "jest" ∈ (link.callee object).identifiers ↔ "jest" ∈ object.identifiers := by
  rw [callee, Tree.identifiers, List.mem_append]
  have hhelper : "jest" ≠ link.helper := (link.helper_ne (by decide)).symm
  exact or_iff_left (List.not_mem_cons_of_ne_of_not_mem hhelper List.not_mem_nil)

theorem mem_identifiers_attach :
    "jest" ∈ (attach object link).identifiers ↔
      "jest" ∈ object.identifiers ∨ "jest" ∈ link.arguments.identifiers := by
  rw [attach, Tree.identifiers, List.mem_append, List.mem_append, mem_identifiers_callee]
  exact or_iff_left List.not_mem_nil

theorem isDirectLoad_callee : Reference.isDirectLoad (link.callee object) = false := by
  cases object with
  | ident start name more =>
    show (_ && decide _) = false
    rw [decide_eq_false (link.helper_ne (by decide)), Bool.and_false]
  | _ => rfl

theorem isMockHelper_callee :
    Reference.isMockHelper (link.callee object) = decide ("jest" ∈ object.identifiers) := by
  have hmentions : (link.callee object).mentions "jest" =
      decide ("jest" ∈ object.identifiers) := by
    rw [Bool.eq_iff_iff, Tree.mentions_iff, mem_identifiers_callee, decide_eq_true_iff]
  show (decide _ && (link.callee object).mentions "jest") = _
  rw [decide_eq_true link.mem_helpers, Bool.true_and, hmentions]

/-- A link on an object is a mock helper exactly if the framework is named in the object. -/
theorem ofCallee?_callee :
    Reference.ofCallee? (link.callee object) =
      if "jest" ∈ object.identifiers then some .mockHelper else none := by
  rw [Reference.ofCallee?, isDirectLoad_callee, isMockHelper_callee, if_neg Bool.false_ne_true]
  simp only [decide_eq_true_eq]

end Link

/-- The first link belongs to the receiver of the others. -/
theorem named_attach {receiver : Node} {link : Link} {links : List Link} :
    Named (Link.attach receiver link) links ↔ Named receiver (link :: links) := by
  rw [Named, Named, Link.mem_identifiers_attach, or_assoc]
  simp only [List.mem_cons, exists_eq_or_imp]

theorem mem_identifiers_chain {receiver : Node} {links : List Link} :
    "jest" ∈ (chain receiver links).identifiers ↔ Named receiver links := by
  induction links generalizing receiver with
  | nil => simp [chain, Named]
  | cons link rest ih => exact ih.trans named_attach

theorem Named.mono {receiver : Node} {links more : List Link} (h : Named receiver links)
    (hsub : ∀ link ∈ links, link ∈ more) : Named receiver more := by
  rcases h with hreceiver | ⟨link, hlink, hframework⟩
  · exact .inl hreceiver
  · exact .inr ⟨link, hsub link hlink, hframework⟩

/-! ## 2. One link -/

namespace Link

variable (settings : Settings) {mark : Mark} {link : Link} (object : Node)

/-- A pass finds a link to be what it was before the pass, since the object keeps its outline. -/
theorem kind_eq :
    link.kind settings mark object =
      if "jest" ∈ object.identifiers then some .mockHelper else none := by
  rw [kind, Tree.visit_eq, Reference.ofCallee?_congr (Tree.outline_amend _ _), ofCallee?_callee]

theorem target_call :
    settings.target (link.call object) =
      link.target settings ("jest" ∈ object.identifiers) := by
  rw [Settings.target, target, call, ofCallee?_callee]
  by_cases h : "jest" ∈ object.identifiers <;> simp [h]

theorem report_call (hmark : mark ∉ link.marks) :
    settings.report mark (link.call object) =
      link.report settings ("jest" ∈ object.identifiers) := by
  rw [Settings.report, report, target_call, target, call, ofCallee?_callee, if_neg hmark]
  by_cases h : "jest" ∈ object.identifiers
  · rw [if_pos h, decide_eq_true h, if_pos rfl, if_pos rfl]
    cases link.arguments.literal? with
    | none => rfl
    | some old =>
      rw [Option.bind_some, Option.bind_some]
      cases settings.resolve old <;> rfl
  · rw [if_neg h, decide_eq_false h, if_neg Bool.false_ne_true]
    rfl

theorem amend_attach (hmark : mark ∉ link.marks) :
    (attach object link).amend (settings.verdict mark) =
      attach (object.amend (settings.verdict mark))
        (link.settled settings mark ("jest" ∈ object.identifiers)) := by
  have hverdict : settings.verdict mark (link.call object) =
      ⟨link.target settings ("jest" ∈ object.identifiers), link.marks ++ [mark]⟩ := by
    rw [Settings.verdict_of_not_mem hmark, target_call]
    rfl
  rw [settled, Tree.visit_eq]
  show Tree.call _ _ (Tree.point (settings.verdict mark (link.call object)).target _) _
    (settings.verdict mark (link.call object)).marks = _
  rw [hverdict]
  rfl

/-- A pass settles a link on what it has made of the object. -/
theorem visit_attach (hmark : mark ∉ link.marks) :
    ((attach object link).visit settings mark).result =
        attach (object.visit settings mark).result
          (link.settled settings mark ("jest" ∈ object.identifiers)) ∧
      ((attach object link).visit settings mark).events =
        (object.visit settings mark).events ++ ((link.arguments.visit settings mark).events ++
          link.report settings ("jest" ∈ object.identifiers)) := by
  have hcalls : (attach object link).calls =
      object.calls ++ (link.arguments.calls ++ [link.call object]) := by
    rw [attach, callee, Tree.calls, Tree.calls, Tree.calls, Tree.calls, Tree.calls, List.append_nil,
      List.append_nil, List.append_assoc]
    rfl
  rw [Tree.visit_eq, Tree.visit_eq settings mark object, Tree.visit_eq settings mark link.arguments]
  refine ⟨amend_attach settings object hmark, ?_⟩
  show (attach object link).calls.flatMap _ = _
  rw [hcalls, List.flatMap_append, List.flatMap_append, List.flatMap_singleton,
    report_call settings object hmark]

end Link

/-! ## 3. The whole chain -/

section Chain

variable {settings : Settings} {mark : Mark} {receiver : Node} {links : List Link}

theorem kind_chain {link : Link} :
    link.kind settings mark (chain receiver links) =
      if Named receiver links then some .mockHelper else none := by
  rw [Link.kind_eq]
  simp only [mem_identifiers_chain]

theorem kind_chain_iff {link : Link} :
    link.kind settings mark (chain receiver links) = some .mockHelper ↔ Named receiver links := by
  rw [kind_chain, Option.ite_none_right_eq_some]
  exact and_iff_left rfl

/-- A pass over a chain settles each link by what stood before it. -/
theorem settled_chain (hfresh : ∀ link ∈ links, mark ∉ link.marks) :
    ((chain receiver links).visit settings mark).result =
        chain (receiver.visit settings mark).result
          (links.mapIdx fun i link =>
            link.settled settings mark (Named receiver (links.take i))) ∧
      ((chain receiver links).visit settings mark).events =
        (receiver.visit settings mark).events ++
          (links.mapIdx fun i link => (link.arguments.visit settings mark).events ++
            link.report settings (Named receiver (links.take i))).flatten := by
  induction links generalizing receiver with
  | nil => exact ⟨rfl, (List.append_nil _).symm⟩
  | cons link rest ih =>
    obtain ⟨hlink, hrest⟩ := List.forall_mem_cons.mp hfresh
    obtain ⟨hresult, hevents⟩ := @ih (Link.attach receiver link) hrest
    obtain ⟨hfirst, hlog⟩ := Link.visit_attach settings receiver hlink
    simp only [named_attach] at hresult hevents
    have hnamed : decide ("jest" ∈ receiver.identifiers) = decide (Named receiver []) :=
      decide_eq_decide.mpr (by simp [Named])
    rw [List.mapIdx_cons, List.mapIdx_cons, List.flatten_cons]
    constructor
    · rw [hfirst, hnamed] at hresult
      exact hresult
    · rw [hlog, hnamed, List.append_assoc] at hevents
      exact hevents

end Chain

/-- In a chain of mock helpers on any receiver a fresh pass finds a link to be a mock helper exactly if
the framework is named in the receiver or in the arguments of a link before it, and to name no module
otherwise; so once a link is a mock helper all links behind it are. The first argument of a link is
pointed at a name exactly if the link is found to be a mock helper, the argument is a literal without
spread and the settings resolve it to that name. The chain afterwards has each link settled in this
way, whatever became of the others, and the log has the report on each. -/
theorem visit_chain (settings : Settings) (mark : Mark) (receiver : Node) (links : List Link)
    (hfresh : ∀ link ∈ links, mark ∉ link.marks) :
    (∀ i link, links[i]? = some link →
      link.kind settings mark (chain receiver (links.take i)) =
          (if Named receiver (links.take i) then some .mockHelper else none) ∧
        (∀ new, link.target settings (Named receiver (links.take i)) = some new ↔
          link.kind settings mark (chain receiver (links.take i)) = some .mockHelper ∧
            ∃ old, link.arguments.literal? = some old ∧ settings.resolve old = some new) ∧
        ∀ j later, i ≤ j → links[j]? = some later →
          link.kind settings mark (chain receiver (links.take i)) = some .mockHelper →
          later.kind settings mark (chain receiver (links.take j)) = some .mockHelper) ∧
    ((chain receiver links).visit settings mark).result =
      chain (receiver.visit settings mark).result
        (links.mapIdx fun i link =>
          link.settled settings mark (Named receiver (links.take i))) ∧
    ((chain receiver links).visit settings mark).events =
      (receiver.visit settings mark).events ++
        (links.mapIdx fun i link => (link.arguments.visit settings mark).events ++
          link.report settings (Named receiver (links.take i))).flatten := by
  refine ⟨?_, settled_chain hfresh⟩
  intro i link _
  refine ⟨kind_chain, ?_, ?_⟩
  · intro new
    rw [kind_chain_iff, Link.target, Option.ite_none_right_eq_some, decide_eq_true_iff,
      Option.bind_eq_some_iff]
  · intro j later hle _ hkind
    rw [kind_chain_iff] at hkind ⊢
    exact hkind.mono fun other hother => List.take_subset_take_left links hle hother

/-- A link without marks, with the given arguments. -/
def Link.plain (helper : String) (known : helper ∈ Reference.helpers) (arguments : List Node) :
    Link :=
  ⟨⟨1, 9⟩, ⟨1, 4⟩, ⟨2, 4⟩, helper, known, .ofList arguments, []⟩

/-- The framework is named in the arguments of the first link only. That makes the second link a mock
helper and the third one, whose argument is a spread and stays. -/
theorem small_visit_chain :
    let receiver : Node := .ident ⟨1, 2⟩ "other" .noField
    let literal (name : String) (raw : Option String) : Node := .arg none (.str ⟨5, 6⟩ name raw)
    let first := Link.plain "mock" (by decide)
      [literal "a" (some "'a'"), .arg none (.ident ⟨7, 8⟩ "jest" .noField)]
    let second := Link.plain "dontMock" (by decide) [literal "b" (some "'b'")]
    let third := Link.plain "mock" (by decide) [.arg (some ⟨4, 5⟩) (.str ⟨5, 6⟩ "c" none)]
    (∀ link ∈ [first, second, third], 0 ∉ link.marks) ∧
      first.kind {} 0 receiver = none ∧
      second.kind {} 0 (chain receiver [first]) = some .mockHelper ∧
      ((chain receiver [first, second, third]).visit {} 0).result =
        chain receiver [{ first with marks := [0] },
          { second with arguments := .ofList [literal "./b" none], marks := [0] },
          { third with marks := [0] }] ∧
      ((chain receiver [first, second, third]).visit {} 0).events =
        [.retargeted .mockHelper "b" "./b", .unchanged .mockHelper] := by
  intro receiver literal first second third
  have hfresh : ∀ link ∈ [first, second, third], 0 ∉ link.marks := by
    simp [first, second, third, Link.plain]
  obtain ⟨hkinds, hresult, hevents⟩ := visit_chain {} 0 receiver [first, second, third] hfresh
  have hfirst := (hkinds 0 first rfl).1
  have hsecond := (hkinds 1 second rfl).1
  exact ⟨hfresh, hfirst.trans (by decide +kernel), hsecond.trans (by decide +kernel),
    hresult.trans (by decide +kernel), hevents.trans (by decide +kernel)⟩

end Retarget
