import Retarget.Pass.Visit
import Retarget.Proofs.Outline
import Retarget.Tree.View

/-!
# A visit as one amendment

A visit settles calls one after the other, inner ones first, and looks at each call when everything
below it has been changed already. An amendment changes all calls at once: what becomes of a call is
judged on the call as it stood before. This module shows that a visit is an amendment.

Results:
1. `calls_amend`: an amendment takes each call of a tree for itself, in its place.
2. `outline_amend`: an amendment keeps the outline, and with it the kind of every callee.
3. `visit_eq`: a visit is the amendment by `Settings.verdict`; its log is the report on each call,
   and its count the number of calls without the mark.
4. `target_eq_some_iff`, `literal?_amend_verdict`: where a call is pointed, and the literal that it
   has afterwards.
5. `calls_chaining`, `amend_chaining`: a call at the base of an optional chain is left alone, and the
   calls below it are not.
-/

namespace Retarget

/-! ## Definitions -/

/-- A call as it stands in a tree, with the marks of the passes that have processed it. -/
structure Call where
  span : Span
  callee : Node
  arguments : Tree .items
  typeArguments : Node
  marks : List Mark

/-- What is to become of a call: the name that the literal in its first place is pointed at, if it
is to be pointed anywhere, and the marks. -/
structure Verdict where
  target : Option String
  marks : List Mark

namespace Tree

/-- The calls of a tree, in the order in which they are settled: inner ones before the one around
them. -/
def calls : ∀ {s : Shape}, Tree s → List Call
  | _, atom _ => []
  | _, span _ => []
  | _, str _ _ _ => []
  | _, ident _ _ more => more.calls
  | _, member _ object property => object.calls ++ property.calls
  | _, call pos callee arguments typeArguments marks =>
    callee.calls ++ (arguments.calls ++ typeArguments.calls) ++
      [⟨pos, callee, arguments, typeArguments, marks⟩]
  | _, arg _ value => value.calls
  | _, list items => items.calls
  | _, record _ fields => fields.calls
  | _, nil => []
  | _, cons head tail => head.calls ++ tail.calls
  | _, noField => []
  | _, field _ value rest => value.calls ++ rest.calls

/-- The name that stands as a string literal, without spread, in the first place. -/
def literal? : Tree .items → Option String
  | cons (arg none (str _ name _)) _ => some name
  | _ => none

/-- Points the literal in the first place at a name. It keeps its span and loses its source text. -/
def point : Option String → Tree .items → Tree .items
  | some name, cons (arg none (str pos _ _)) rest => cons (arg none (str pos name none)) rest
  | _, arguments => arguments

/-- Changes all calls of a tree at once, each by the verdict on it as it stands. -/
def amend (judge : Call → Verdict) : ∀ {s : Shape}, Tree s → Tree s
  | _, atom value => atom value
  | _, span value => span value
  | _, str pos value raw => str pos value raw
  | _, ident pos name more => ident pos name (more.amend judge)
  | _, member pos object property => member pos (object.amend judge) (property.amend judge)
  | _, call pos callee arguments typeArguments marks =>
    let verdict := judge ⟨pos, callee, arguments, typeArguments, marks⟩
    call pos (callee.amend judge) ((arguments.amend judge).point verdict.target)
      (typeArguments.amend judge) verdict.marks
  | _, arg spread value => arg spread (value.amend judge)
  | _, list items => list (items.amend judge)
  | _, record kind fields => record kind (fields.amend judge)
  | _, nil => nil
  | _, cons head tail => cons (head.amend judge) (tail.amend judge)
  | _, noField => noField
  | _, field name value rest => field name (value.amend judge) (rest.amend judge)

end Tree

/-- A call after an amendment of the tree in which it stands. -/
def Call.amend (judge : Call → Verdict) (call : Call) : Call where
  span := call.span
  callee := call.callee.amend judge
  arguments := (call.arguments.amend judge).point (judge call).target
  typeArguments := call.typeArguments.amend judge
  marks := (judge call).marks

namespace Node

/-- The calls below a node: all of its calls, without the node itself if that is a call. -/
def callsBelow : Node → List Call
  | .call _ callee arguments typeArguments _ =>
    callee.calls ++ (arguments.calls ++ typeArguments.calls)
  | node => node.calls

/-- Amends the calls below a node, and leaves the node itself alone if it is a call. -/
def amendBelow (judge : Call → Verdict) : Node → Node
  | .call pos callee arguments typeArguments marks =>
    .call pos (callee.amend judge) (arguments.amend judge) (typeArguments.amend judge) marks
  | node => node.amend judge

end Node

namespace Settings

/-- The name that stands in a literal after a pass has been over it. -/
def rename (settings : Settings) (name : String) : String :=
  (settings.resolve name).getD name

/-- The name that a call's first literal is pointed at: only a call that names a module has one. -/
def target (settings : Settings) (call : Call) : Option String :=
  match Reference.ofCallee? call.callee with
  | none => none
  | some _ => call.arguments.literal?.bind settings.resolve

/-- What a pass makes of a call: nothing if the call carries its mark. -/
def verdict (settings : Settings) (mark : Mark) (call : Call) : Verdict :=
  if mark ∈ call.marks then ⟨none, call.marks⟩
  else ⟨settings.target call, call.marks ++ [mark]⟩

/-- What a pass logs about a call. -/
def report (settings : Settings) (mark : Mark) (call : Call) : List Event :=
  if mark ∈ call.marks then [.alreadyProcessed]
  else
    match Reference.ofCallee? call.callee with
    | none => []
    | some kind =>
      match call.arguments.literal?, settings.target call with
      | some old, some new => [.retargeted kind old new]
      | _, _ => [.unchanged kind]

end Settings

/-! ## 1. The calls of an amended tree -/

namespace Tree

theorem calls_point (target : Option String) (arguments : Tree .items) :
    (arguments.point target).calls = arguments.calls := by
  fun_cases point target arguments with
  | case1 name pos old raw rest => rfl
  | case2 => rfl

/-- The calls of an amended tree are the calls of the tree, each amended on its own. -/
theorem calls_amend (judge : Call → Verdict) {s : Shape} (tree : Tree s) :
    (tree.amend judge).calls = tree.calls.map (Call.amend judge) := by
  induction tree with
  | atom value => rfl
  | span value => rfl
  | str pos value raw => rfl
  | ident pos name more ih => exact ih
  | member pos object property ihObject ihProperty =>
    rw [amend, calls, calls, List.map_append, ihObject, ihProperty]
  | call pos callee arguments typeArguments marks ihCallee ihArguments ihTypeArguments =>
    rw [amend, calls, calls, calls_point, ihCallee, ihArguments, ihTypeArguments]
    simp only [List.map_append, List.map_cons, List.map_nil]
    rfl
  | arg spread value ih => exact ih
  | list items ih => exact ih
  | record kind fields ih => exact ih
  | nil => rfl
  | cons head tail ihHead ihTail => rw [amend, calls, calls, List.map_append, ihHead, ihTail]
  | noField => rfl
  | field name value rest ihValue ihRest =>
    rw [amend, calls, calls, List.map_append, ihValue, ihRest]

/-! ## 2. What an amendment keeps -/

theorem outline_point (target : Option String) (arguments : Tree .items) :
    (arguments.point target).outline = arguments.outline := by
  fun_cases point target arguments with
  | case1 name pos old raw rest => rfl
  | case2 => rfl

theorem outline_amend (judge : Call → Verdict) {s : Shape} (tree : Tree s) :
    (tree.amend judge).outline = tree.outline := by
  induction tree with
  | atom value => rfl
  | span value => rfl
  | str pos value raw => rfl
  | ident pos name more ih => rw [amend, outline, outline, ih]
  | member pos object property ihObject ihProperty =>
    rw [amend, outline, outline, ihObject, ihProperty]
  | call pos callee arguments typeArguments marks ihCallee ihArguments ihTypeArguments =>
    rw [amend, outline, outline, outline_point, ihCallee, ihArguments, ihTypeArguments]
  | arg spread value ih => rw [amend, outline, outline, ih]
  | list items ih => rw [amend, outline, outline, ih]
  | record kind fields ih => rw [amend, outline, outline, ih]
  | nil => rfl
  | cons head tail ihHead ihTail => rw [amend, outline, outline, ihHead, ihTail]
  | noField => rfl
  | field name value rest ihValue ihRest => rw [amend, outline, outline, ihValue, ihRest]

/-- An amendment changes a literal only through the call whose first argument it is, so it leaves
the first argument of a list on its own alone. -/
theorem literal?_amend (judge : Call → Verdict) (arguments : Tree .items) :
    (arguments.amend judge).literal? = arguments.literal? := by
  cases arguments with
  | nil => rfl
  | cons head rest =>
    cases head with
    | arg spread value => cases spread <;> cases value <;> rfl
    | _ => rfl

end Tree

/-! ## 3. A visit is an amendment -/

namespace Settings

theorem verdict_of_mem {settings : Settings} {mark : Mark} {call : Call} (h : mark ∈ call.marks) :
    settings.verdict mark call = ⟨none, call.marks⟩ :=
  if_pos h

theorem verdict_of_not_mem {settings : Settings} {mark : Mark} {call : Call}
    (h : mark ∉ call.marks) :
    settings.verdict mark call = ⟨settings.target call, call.marks ++ [mark]⟩ :=
  if_neg h

theorem report_of_mem {settings : Settings} {mark : Mark} {call : Call} (h : mark ∈ call.marks) :
    settings.report mark call = [.alreadyProcessed] :=
  if_pos h

theorem target_congr {settings : Settings} {call other : Call}
    (hcallee : call.callee.outline = other.callee.outline)
    (hliteral : call.arguments.literal? = other.arguments.literal?) :
    settings.target call = settings.target other := by
  rw [target, target, Reference.ofCallee?_congr hcallee, hliteral]

/-- The verdict on a call looks at no more than the callee's outline, the first literal and the
marks. -/
theorem verdict_congr {settings : Settings} {mark : Mark} {call other : Call}
    (hcallee : call.callee.outline = other.callee.outline)
    (hliteral : call.arguments.literal? = other.arguments.literal?)
    (hmarks : call.marks = other.marks) :
    settings.verdict mark call = settings.verdict mark other := by
  rw [verdict, verdict, target_congr hcallee hliteral, hmarks]

theorem report_congr {settings : Settings} {mark : Mark} {call other : Call}
    (hcallee : call.callee.outline = other.callee.outline)
    (hliteral : call.arguments.literal? = other.arguments.literal?)
    (hmarks : call.marks = other.marks) :
    settings.report mark call = settings.report mark other := by
  rw [report, report, target_congr hcallee hliteral, Reference.ofCallee?_congr hcallee, hliteral,
    hmarks]

end Settings

namespace Tree

theorem point_none (arguments : Tree .items) : arguments.point none = arguments := by
  rw [point]
  exact fun _ _ _ _ _ h => nomatch h

/-- A list with a literal in the first place begins with it. -/
theorem exists_of_literal? {arguments : Tree .items} {name : String}
    (h : arguments.literal? = some name) :
    ∃ place raw rest, arguments = cons (arg none (str place name raw)) rest := by
  cases arguments with
  | nil => exact nomatch h
  | cons head rest =>
    cases head with
    | arg spread value =>
      cases spread with
      | some dots => exact nomatch h
      | none =>
        cases value with
        | str place found raw =>
          cases h
          exact ⟨place, raw, rest, rfl⟩
        | _ => exact nomatch h
    | _ => exact nomatch h

theorem point_of_literal?_none {arguments : Tree .items} (h : arguments.literal? = none)
    (target : Option String) : arguments.point target = arguments := by
  fun_cases point target arguments with
  | case1 name pos old raw rest => cases h
  | case2 => rfl

/-- A function on lists that goes past a literal in the first place, and neither adds nor takes one
away, commutes with pointing it at a name. -/
theorem point_comm {g : Tree .items → Tree .items} {f : Span → Span}
    (hhead : ∀ place name raw rest, g (cons (arg none (str place name raw)) rest) =
      cons (arg none (str (f place) name raw)) (g rest))
    (hliteral : ∀ arguments, (g arguments).literal? = arguments.literal?)
    (target : Option String) (arguments : Tree .items) :
    (g arguments).point target = g (arguments.point target) := by
  cases h : arguments.literal? with
  | none => rw [point_of_literal?_none h, point_of_literal?_none ((hliteral arguments).trans h)]
  | some old =>
    obtain ⟨place, raw, rest, rfl⟩ := exists_of_literal? h
    cases target with
    | none => rw [point_none, point_none]
    | some name => rw [hhead, point, point, hhead]

theorem retarget?_eq (settings : Settings) (arguments : Tree .items) :
    retarget? settings arguments =
      arguments.literal?.bind fun old =>
        (settings.resolve old).map fun new => ⟨old, new, arguments.point (some new)⟩ := by
  cases arguments with
  | nil => rfl
  | cons head rest =>
    cases head with
    | arg spread value => cases spread <;> cases value <;> rfl
    | _ => rfl

theorem settle_of_mem {settings : Settings} {mark : Mark} {now : Call} (h : mark ∈ now.marks) :
    settle settings mark now.span now.callee now.arguments now.typeArguments now.marks =
      ⟨call now.span now.callee now.arguments now.typeArguments now.marks, [.alreadyProcessed],
        0⟩ :=
  if_pos h

theorem settle_of_not_mem {settings : Settings} {mark : Mark} {now : Call}
    (h : mark ∉ now.marks) :
    settle settings mark now.span now.callee now.arguments now.typeArguments now.marks =
      ⟨call now.span now.callee (now.arguments.point (settings.target now)) now.typeArguments
        (now.marks ++ [mark]), settings.report mark now, 1⟩ := by
  rw [settle, if_neg h, Settings.report, if_neg h, Settings.target]
  cases Reference.ofCallee? now.callee with
  | none => rw [point_none]
  | some kind =>
    rw [retarget?_eq]
    cases now.arguments.literal? with
    | none => rw [Option.bind_none, Option.bind_none, point_none]
    | some old =>
      rw [Option.bind_some, Option.bind_some]
      cases settings.resolve old with
      | none => rw [Option.map_none, point_none]
      | some new => rfl

/-- Settling a call whose children are settled, told by the verdict and the report on it. -/
theorem settle_eq (settings : Settings) (mark : Mark) (now : Call) :
    settle settings mark now.span now.callee now.arguments now.typeArguments now.marks =
      ⟨call now.span now.callee (now.arguments.point (settings.verdict mark now).target)
        now.typeArguments (settings.verdict mark now).marks,
        settings.report mark now, if mark ∈ now.marks then 0 else 1⟩ := by
  by_cases h : mark ∈ now.marks
  · rw [settle_of_mem h, Settings.verdict_of_mem h, Settings.report_of_mem h, if_pos h, point_none]
  · rw [settle_of_not_mem h, Settings.verdict_of_not_mem h, if_neg h]

/-- When a call is settled its children have been amended. They have kept their outline and the
first literal, so that the verdict is the one on the call as it stood before. -/
theorem settle_amend (settings : Settings) (mark : Mark) (judge : Call → Verdict) (before : Call) :
    settle settings mark before.span (before.callee.amend judge) (before.arguments.amend judge)
        (before.typeArguments.amend judge) before.marks =
      ⟨call before.span (before.callee.amend judge)
        ((before.arguments.amend judge).point (settings.verdict mark before).target)
        (before.typeArguments.amend judge) (settings.verdict mark before).marks,
        settings.report mark before, if mark ∈ before.marks then 0 else 1⟩ := by
  -- The call at the moment when it is settled.
  let now : Call := ⟨before.span, before.callee.amend judge, before.arguments.amend judge,
    before.typeArguments.amend judge, before.marks⟩
  have hcallee : now.callee.outline = before.callee.outline := outline_amend judge before.callee
  have hliteral : now.arguments.literal? = before.arguments.literal? :=
    literal?_amend judge before.arguments
  have h := settle_eq settings mark now
  rw [Settings.verdict_congr hcallee hliteral rfl, Settings.report_congr hcallee hliteral rfl] at h
  exact h

/-- A call is visited by visiting its children and settling it on what they have become. -/
theorem visit_call {settings : Settings} {mark : Mark} {pos : Span} {callee : Node}
    {arguments : Tree .items} {typeArguments : Node} {marks : List Mark}
    {first third last : Visited Node} {second : Visited (Tree .items)}
    (hfirst : callee.visit settings mark = first)
    (hsecond : arguments.visit settings mark = second)
    (hthird : typeArguments.visit settings mark = third)
    (hlast : settle settings mark pos first.result second.result third.result marks = last) :
    (call pos callee arguments typeArguments marks).visit settings mark =
      ⟨last.result, first.events ++ (second.events ++ third.events) ++ last.events,
        first.count + (second.count + third.count) + last.count⟩ := by
  rw [visit, hfirst, hsecond, hthird, ← hlast]
  rfl

/-- A visit changes all calls at once, each judged as it stood before the visit. It logs its report
on each of them, and counts those that do not carry the mark. -/
theorem visit_eq (settings : Settings) (mark : Mark) {s : Shape} (tree : Tree s) :
    tree.visit settings mark =
      ⟨tree.amend (settings.verdict mark), tree.calls.flatMap (settings.report mark),
        tree.calls.countP fun call => mark ∉ call.marks⟩ := by
  induction tree with
  | atom value => rfl
  | span value => rfl
  | str pos value raw => rfl
  | ident pos name more ih => rw [visit, ih]; rfl
  | member pos object property ihObject ihProperty =>
    rw [visit, ihObject, ihProperty, calls, List.flatMap_append, List.countP_append]
    rfl
  | call pos callee arguments typeArguments marks ihCallee ihArguments ihTypeArguments =>
    let before : Call := ⟨pos, callee, arguments, typeArguments, marks⟩
    have hsettle := settle_amend settings mark (settings.verdict mark) before
    have hcount : [before].countP (fun call => mark ∉ call.marks) =
        if mark ∈ marks then 0 else 1 := by
      by_cases hm : mark ∈ marks <;> simp [before, hm]
    rw [visit_call ihCallee ihArguments ihTypeArguments hsettle, calls, List.flatMap_append,
      List.flatMap_append, List.flatMap_append, List.flatMap_singleton, List.countP_append,
      List.countP_append, List.countP_append, hcount]
    rfl
  | arg spread value ih => rw [visit, ih]; rfl
  | list items ih => rw [visit, ih]; rfl
  | record kind fields ih => rw [visit, ih]; rfl
  | nil => rfl
  | cons head tail ihHead ihTail =>
    rw [visit, ihHead, ihTail, calls, List.flatMap_append, List.countP_append]
    rfl
  | noField => rfl
  | field name value rest ihValue ihRest =>
    rw [visit, ihValue, ihRest, calls, List.flatMap_append, List.countP_append]
    rfl

end Tree

/-! ## 4. What becomes of one call -/

namespace Tree

/-- Pointing the first literal of a list and amending the list can be done in either order. -/
theorem point_amend (judge : Call → Verdict) (target : Option String) (arguments : Tree .items) :
    (arguments.amend judge).point target = (arguments.point target).amend judge :=
  point_comm (f := id) (fun _ _ _ _ => rfl) (literal?_amend judge) target arguments

/-- A literal that has been pointed at a name holds it, and pointing it there again does nothing. -/
theorem point_of_literal? {arguments : Tree .items} {old : String}
    (h : arguments.literal? = some old) (name : String) :
    (arguments.point (some name)).literal? = some name ∧
      (arguments.point (some name)).point (some name) = arguments.point (some name) := by
  unfold literal? at h
  split at h
  · exact ⟨rfl, rfl⟩
  · cases h

theorem literal?_point (arguments : Tree .items) (target : Option String) :
    (arguments.point target).literal? = arguments.literal?.map target.getD := by
  cases h : arguments.literal? with
  | none =>
    rw [point_of_literal?_none h, h]
    rfl
  | some old =>
    cases target with
    | none =>
      rw [point_none, h]
      rfl
    | some name => exact (point_of_literal? h name).1

end Tree

/-- The kind of a call stays when the tree around it is amended. -/
theorem Reference.ofCallee?_amend (judge : Call → Verdict) (call : Call) :
    ofCallee? (call.amend judge).callee = ofCallee? call.callee :=
  ofCallee?_congr (Tree.outline_amend judge call.callee)

namespace Settings

/-- The target of a call that names a module, by what its first literal resolves to. -/
theorem target_of_kind {settings : Settings} {call : Call} {kind : Reference}
    (h : Reference.ofCallee? call.callee = some kind) :
    settings.target call = call.arguments.literal?.bind settings.resolve := by
  rw [target, h]

theorem target_of_no_kind {settings : Settings} {call : Call}
    (h : Reference.ofCallee? call.callee = none) : settings.target call = none := by
  rw [target, h]

/-- A call has a target when it names a module by a literal that resolves. -/
theorem target_eq_some_iff {settings : Settings} {call : Call} {new : String} :
    settings.target call = some new ↔
      (∃ kind, Reference.ofCallee? call.callee = some kind) ∧
        ∃ old, call.arguments.literal? = some old ∧ settings.resolve old = some new := by
  unfold target
  constructor
  · intro h
    split at h
    · cases h
    · next kind hkind => exact ⟨⟨kind, hkind⟩, Option.bind_eq_some_iff.mp h⟩
  · rintro ⟨⟨kind, hkind⟩, h⟩
    rw [hkind]
    exact Option.bind_eq_some_iff.mpr h

/-- A pass over a call that it has not processed leaves the renamed literal. -/
theorem literal?_amend_verdict {settings : Settings} {mark : Mark} {call : Call} {kind : Reference}
    (hkind : Reference.ofCallee? call.callee = some kind) (hmark : mark ∉ call.marks) :
    (call.amend (settings.verdict mark)).arguments.literal? =
      call.arguments.literal?.map settings.rename := by
  have htarget : (settings.verdict mark call).target =
      call.arguments.literal?.bind settings.resolve := by
    rw [verdict_of_not_mem hmark]
    exact target_of_kind hkind
  rw [Call.amend, htarget, Tree.literal?_point, Tree.literal?_amend]
  cases call.arguments.literal? <;> rfl

end Settings

/-! ## 5. Calls behind an optional chain -/

namespace Tree

theorem calls_ofFields (fields : List (String × Node)) :
    (ofFields fields).calls = fields.flatMap fun entry => entry.2.calls := by
  induction fields with
  | nil => rfl
  | cons entry rest ih => rw [ofFields, calls, ih, List.flatMap_cons]

theorem amend_ofFields (judge : Call → Verdict) (fields : List (String × Node)) :
    (ofFields fields).amend judge =
      ofFields (fields.map fun entry => (entry.1, entry.2.amend judge)) := by
  induction fields with
  | nil => rfl
  | cons entry rest ih =>
    rw [ofFields, amend, ih]
    rfl

end Tree

namespace Node

theorem calls_unlink (node : Node) : (unlink node).calls = callsBelow node := by
  cases node with
  | call pos callee arguments typeArguments marks =>
    rw [unlink, Tree.calls, Tree.calls_ofFields]
    simp [callsBelow, Tree.calls]
  | _ => rfl

theorem amend_unlink (judge : Call → Verdict) (node : Node) :
    (unlink node).amend judge = unlink (amendBelow judge node) := by
  cases node with
  | call pos callee arguments typeArguments marks => rfl
  | _ => rfl

/-- An optional chain keeps its fields in their places, with the base unlinked. -/
theorem recordOf_chaining (fields : List (String × Node)) :
    recordOf "OptionalChainingExpression" fields =
      .record (some "OptionalChainingExpression") (.ofFields (fields.map fun entry =>
        if entry.1 = "base" then (entry.1, unlink entry.2) else entry)) := by
  have horder : Tree.childOrder "OptionalChainingExpression" = [] := rfl
  rw [recordOf, if_pos rfl, horder, Tree.arrange_nil]

/-- A call at the base of an optional chain is none of its calls, though the calls below it are. -/
theorem calls_chaining (fields : List (String × Node)) :
    (recordOf "OptionalChainingExpression" fields).calls =
      fields.flatMap fun entry =>
        if entry.1 = "base" then callsBelow entry.2 else entry.2.calls := by
  rw [recordOf_chaining, Tree.calls, Tree.calls_ofFields, List.flatMap_map]
  refine congrArg (List.flatMap · fields) (funext fun entry => ?_)
  by_cases h : entry.1 = "base"
  · rw [if_pos h, if_pos h]
    exact calls_unlink entry.2
  · rw [if_neg h, if_neg h]

theorem amend_chaining (judge : Call → Verdict) (fields : List (String × Node)) :
    (recordOf "OptionalChainingExpression" fields).amend judge =
      recordOf "OptionalChainingExpression" (fields.map fun entry =>
        (entry.1, if entry.1 = "base" then amendBelow judge entry.2 else entry.2.amend judge)) := by
  rw [recordOf_chaining, recordOf_chaining, Tree.amend, Tree.amend_ofFields, List.map_map,
    List.map_map]
  congr 2
  apply List.map_congr_left
  intro entry _
  by_cases h : entry.1 = "base"
  · simp only [Function.comp, if_pos h, amend_unlink]
  · simp only [Function.comp, if_neg h]

end Node

end Retarget
