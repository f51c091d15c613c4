import Mathlib.Data.List.Forall2
import Retarget.Proofs.Change
import Retarget.Proofs.Step

/-!
# The marks tell the history of a program

Passes are taken over a program in any order while it is edited. Leaving out all visits gives
another program, which holds the names as they came in. `Traced` says how the two belong together:
they are the same tree, except that a call of the visited program may carry marks, and that the
literal in the first place of a call that names a module holds what the passes behind these marks,
in their order, have made of the name.

Results:
1. `Traced.amended`: a visit keeps a program traced, since it appends its mark where it resolves a
   name.
2. `Traced.dropSpan`, `traced_apply`: an edit of both programs does.
3. `after_traced`: the programs belong together after any steps.
-/

namespace Retarget

/-! ## Definitions -/

/-- What the pass with a number makes of a name; the settings of the passes stand at the places of
their numbers. -/
def resolveBy (known : List Settings) (mark : Mark) (name : String) : Option String :=
  known[mark]?.bind fun settings => settings.resolve name

/-- The name that passes make of a name one after the other. A pass that does not resolve the name
that it finds leaves it. -/
def trail (known : List Settings) (marks : List Mark) (name : String) : String :=
  marks.foldl (fun name mark => (resolveBy known mark name).getD name) name

/-- Whether any of the passes resolves the name that it finds. -/
def touched (known : List Settings) : List Mark → String → Bool
  | [], _ => false
  | mark :: rest, name =>
    (resolveBy known mark name).isSome ||
      touched known rest ((resolveBy known mark name).getD name)

namespace Tree

/-- `Traced known old now`: the tree `now` is `old`, which has no marks, after visits of passes with
known settings.

* `named`: the literal of a call that names a module has been pointed on by each pass whose mark the
  call carries; it has kept its source text only if none of them resolved it.
* `plain`: any other call has got marks and nothing else. -/
inductive Traced (known : List Settings) : ∀ {s : Shape}, Tree s → Tree s → Prop
  | atom (value : Atom) : Traced known (atom value) (atom value)
  | span (value : Span) : Traced known (span value) (span value)
  | str (pos : Span) (value : String) (raw : Option String) :
      Traced known (str pos value raw) (str pos value raw)
  | ident {pos : Span} {name : String} {more more' : Tree .fields} :
      Traced known more more' → Traced known (ident pos name more) (ident pos name more')
  | member {pos : Span} {object object' property property' : Node} :
      Traced known object object' → Traced known property property' →
      Traced known (member pos object property) (member pos object' property')
  | named {pos place : Span} {name : String} {raw : Option String} {kind : Reference}
      {callee callee' typeArguments typeArguments' : Node} {rest rest' : Tree .items}
      {marks : List Mark} :
      Reference.ofCallee? callee = some kind → (∀ mark ∈ marks, mark < known.length) →
      Traced known callee callee' → Traced known rest rest' →
      Traced known typeArguments typeArguments' →
      Traced known
        (call pos callee (cons (arg none (str place name raw)) rest) typeArguments [])
        (call pos callee'
          (cons (arg none (str place (trail known marks name)
            (if touched known marks name then none else raw))) rest') typeArguments' marks)
  | plain {pos : Span} {callee callee' typeArguments typeArguments' : Node}
      {arguments arguments' : Tree .items} {marks : List Mark} :
      Reference.ofCallee? callee = none ∨ arguments.literal? = none →
      (∀ mark ∈ marks, mark < known.length) →
      Traced known callee callee' → Traced known arguments arguments' →
      Traced known typeArguments typeArguments' →
      Traced known (call pos callee arguments typeArguments [])
        (call pos callee' arguments' typeArguments' marks)
  | arg {spread : Option Span} {value value' : Node} :
      Traced known value value' → Traced known (arg spread value) (arg spread value')
  | list {items items' : Tree .items} :
      Traced known items items' → Traced known (list items) (list items')
  | record {kind : Option String} {fields fields' : Tree .fields} :
      Traced known fields fields' → Traced known (record kind fields) (record kind fields')
  | nil : Traced known nil nil
  | cons {head head' : Node} {tail tail' : Tree .items} :
      Traced known head head' → Traced known tail tail' →
      Traced known (cons head tail) (cons head' tail')
  | noField : Traced known noField noField
  | field {name : String} {value value' : Node} {rest rest' : Tree .fields} :
      Traced known value value' → Traced known rest rest' →
      Traced known (field name value rest) (field name value' rest')

end Tree

namespace Program

/-- A program is traced when its items are; nothing else of it may differ. -/
structure Traced (known : List Settings) (old now : Program) : Prop where
  kind : now.kind = old.kind
  span : now.span = old.span
  interpreter : now.interpreter = old.interpreter
  body : List.Forall₂ (Tree.Traced known) old.body now.body

/-- No call of the program carries a mark. -/
def MarkFree (program : Program) : Prop :=
  ∀ item ∈ program.body, ∀ call ∈ item.calls, call.marks = []

instance (program : Program) : Decidable program.MarkFree :=
  inferInstanceAs (Decidable (∀ item ∈ program.body, ∀ call ∈ item.calls, call.marks = []))

end Program

namespace Step

/-- Whether a step takes a pass over the program. -/
def isVisit : Step → Bool
  | visit _ _ => true
  | create _ => false
  | edit _ => false

/-- A step brings no marks into a program. -/
def MarkFree : Step → Prop
  | edit (.append program) => program.MarkFree
  | _ => True

end Step

/-! ## Trails -/

section Trails

variable {known : List Settings} {marks : List Mark}

theorem trail_cons (mark : Mark) (name : String) :
    trail known (mark :: marks) name =
      trail known marks ((resolveBy known mark name).getD name) :=
  rfl

theorem trail_snoc (mark : Mark) (name : String) :
    trail known (marks ++ [mark]) name =
      (resolveBy known mark (trail known marks name)).getD (trail known marks name) := by
  rw [trail, List.foldl_append]
  rfl

theorem touched_snoc (mark : Mark) (name : String) :
    touched known (marks ++ [mark]) name =
      (touched known marks name || (resolveBy known mark (trail known marks name)).isSome) := by
  induction marks generalizing name with
  | nil => exact Bool.or_false _
  | cons first rest ih =>
    rw [List.cons_append, touched, touched, ih, Bool.or_assoc]
    rfl

theorem resolveBy_append {mark : Mark} (h : mark < known.length) (more : List Settings)
    (name : String) : resolveBy (known ++ more) mark name = resolveBy known mark name := by
  rw [resolveBy, resolveBy, List.getElem?_append_left h]

theorem trail_append (h : ∀ mark ∈ marks, mark < known.length) (more : List Settings)
    (name : String) : trail (known ++ more) marks name = trail known marks name := by
  induction marks generalizing name with
  | nil => rfl
  | cons mark rest ih =>
    have hrest := ih fun m hm => h m (List.mem_cons_of_mem mark hm)
    rw [trail_cons, trail_cons, resolveBy_append (h mark List.mem_cons_self), hrest]

theorem touched_append (h : ∀ mark ∈ marks, mark < known.length) (more : List Settings)
    (name : String) : touched (known ++ more) marks name = touched known marks name := by
  induction marks generalizing name with
  | nil => rfl
  | cons mark rest ih =>
    have hrest := ih fun m hm => h m (List.mem_cons_of_mem mark hm)
    rw [touched, touched, resolveBy_append (h mark List.mem_cons_self), hrest]

end Trails

namespace Tree

/-! ## Traced trees -/

namespace Traced

variable {known : List Settings} {s : Shape} {old now : Tree s}

theorem outline (h : Traced known old now) : old.outline = now.outline := by
  induction h with
  | atom value => rfl
  | span value => rfl
  | str pos value raw => rfl
  | ident _ ih => rw [Tree.outline, Tree.outline, ih]
  | member _ _ ihObject ihProperty => rw [Tree.outline, Tree.outline, ihObject, ihProperty]
  | named _ _ _ _ _ ihCallee ihRest ihTypeArguments =>
    simp only [Tree.outline, ihCallee, ihRest, ihTypeArguments]
  | plain _ _ _ _ _ ihCallee ihArguments ihTypeArguments =>
    rw [Tree.outline, Tree.outline, ihCallee, ihArguments, ihTypeArguments]
  | arg _ ih => rw [Tree.outline, Tree.outline, ih]
  | list _ ih => rw [Tree.outline, Tree.outline, ih]
  | record _ ih => rw [Tree.outline, Tree.outline, ih]
  | nil => rfl
  | cons _ _ ihHead ihTail => rw [Tree.outline, Tree.outline, ihHead, ihTail]
  | noField => rfl
  | field _ _ ihValue ihRest => rw [Tree.outline, Tree.outline, ihValue, ihRest]

/-- The first literal of a list on its own has not changed: only a call changes its literal. -/
theorem literal? {old now : Tree .items} (h : Traced known old now) :
    now.literal? = old.literal? := by
  cases h with
  | nil => rfl
  | cons hhead _ =>
    cases hhead with
    | @arg spread _ _ hvalue => cases spread <;> cases hvalue <;> rfl
    | _ => rfl

/-- A tree stays traced when more passes become known. -/
theorem append (h : Traced known old now) (more : List Settings) :
    Traced (known ++ more) old now := by
  have hlength : ∀ mark, mark < known.length → mark < (known ++ more).length := by
    intro mark hmark
    rw [List.length_append]
    exact Nat.lt_add_right _ hmark
  induction h with
  | atom value => exact .atom value
  | span value => exact .span value
  | str pos value raw => exact .str pos value raw
  | ident _ ih => exact .ident ih
  | member _ _ ihObject ihProperty => exact .member ihObject ihProperty
  | named hkind hmarks _ _ _ ihCallee ihRest ihTypeArguments =>
    rw [← trail_append hmarks more, ← touched_append hmarks more]
    exact .named hkind (fun mark hmark => hlength mark (hmarks mark hmark)) ihCallee ihRest
      ihTypeArguments
  | plain hplain hmarks _ _ _ ihCallee ihArguments ihTypeArguments =>
    exact .plain hplain (fun mark hmark => hlength mark (hmarks mark hmark)) ihCallee ihArguments
      ihTypeArguments
  | arg _ ih => exact .arg ih
  | list _ ih => exact .list ih
  | record _ ih => exact .record ih
  | nil => exact .nil
  | cons _ _ ihHead ihTail => exact .cons ihHead ihTail
  | noField => exact .noField
  | field _ _ ihValue ihRest => exact .field ihValue ihRest

/-! ## 1. A visit -/

/-- One more pass resolves the name that the passes before it have left. -/
theorem point_snoc (mark : Mark) (marks : List Mark) (place : Span) (name : String)
    (raw : Option String) (rest : Tree .items) :
    (Tree.cons (Tree.arg none (Tree.str place (trail known marks name)
        (if touched known marks name then none else raw))) rest).point
        (resolveBy known mark (trail known marks name)) =
      Tree.cons (Tree.arg none (Tree.str place (trail known (marks ++ [mark]) name)
        (if touched known (marks ++ [mark]) name then none else raw))) rest := by
  rw [trail_snoc, touched_snoc]
  cases resolveBy known mark (trail known marks name) with
  | none => rw [point_none, Option.getD_none, Option.isSome_none, Bool.or_false]
  | some new => rw [Option.getD_some, Option.isSome_some, Bool.or_true]; rfl

/-- A visit leaves its mark on every call that has it not, and points the literal on where it
resolves the name: a call that names a module did so from the start. -/
theorem amended {mark : Mark} {settings : Settings} (hmark : known[mark]? = some settings)
    (h : Traced known old now) : Traced known old (now.amend (settings.verdict mark)) := by
  have hknown : ∀ {marks : List Mark}, (∀ m ∈ marks, m < known.length) →
      ∀ m ∈ marks ++ [mark], m < known.length := by
    intro marks hmarks m hm
    rcases List.mem_append.mp hm with hm | hm
    · exact hmarks m hm
    · rw [List.mem_singleton.mp hm]
      exact (List.getElem?_eq_some_iff.mp hmark).1
  induction h with
  | atom value => exact .atom value
  | span value => exact .span value
  | str pos value raw => exact .str pos value raw
  | ident _ ih => exact .ident ih
  | member _ _ ihObject ihProperty => exact .member ihObject ihProperty
  | @named pos place name raw kind callee callee' targs targs' rest rest' marks hkind hmarks
      hcallee _ _ ihCallee ihRest ihTypeArguments =>
    by_cases hm : mark ∈ marks
    · rw [amend, Settings.verdict_of_mem hm]
      exact .named hkind hmarks ihCallee ihRest ihTypeArguments
    · -- The visit judges the callee as it is now, with the outline that it has had from the start.
      have hresolve : settings.resolve (trail known marks name) =
          resolveBy known mark (trail known marks name) := by
        rw [resolveBy, hmark, Option.bind_some]
      rw [amend, Settings.verdict_of_not_mem hm, Settings.target,
        ← Reference.ofCallee?_congr hcallee.outline, hkind]
      show Traced known _ (call pos _ ((Tree.cons _ _).point (settings.resolve _)) _ _)
      rw [hresolve, amend, amend, point_snoc]
      exact .named hkind (hknown hmarks) ihCallee ihRest ihTypeArguments
  | @plain pos callee callee' targs targs' args args' marks hplain hmarks hcallee hargs _ ihCallee
      ihArguments ihTypeArguments =>
    have htarget : settings.target ⟨pos, callee', args', targs', marks⟩ = none := by
      rw [Settings.target, ← Reference.ofCallee?_congr hcallee.outline, hargs.literal?]
      rcases hplain with hplain | hplain
      · rw [hplain]
      · rw [hplain]
        cases Reference.ofCallee? callee <;> rfl
    by_cases hm : mark ∈ marks
    · rw [amend, Settings.verdict_of_mem hm, point_none]
      exact .plain hplain hmarks ihCallee ihArguments ihTypeArguments
    · rw [amend, Settings.verdict_of_not_mem hm, htarget, point_none]
      exact .plain hplain (hknown hmarks) ihCallee ihArguments ihTypeArguments
  | arg _ ih => exact .arg ih
  | list _ ih => exact .list ih
  | record _ ih => exact .record ih
  | nil => exact .nil
  | cons _ _ ihHead ihTail => exact .cons ihHead ihTail
  | noField => exact .noField
  | field _ _ ihValue ihRest => exact .field ihValue ihRest

/-! ## 2. Edits -/

/-- A tree without marks is traced to itself. -/
theorem refl {tree : Tree s} (h : ∀ call ∈ tree.calls, call.marks = []) :
    Traced known tree tree := by
  induction tree with
  | atom value => exact .atom value
  | span value => exact .span value
  | str pos value raw => exact .str pos value raw
  | ident pos name more ih => exact .ident (ih h)
  | member pos object property ihObject ihProperty =>
    have hparts := List.forall_mem_append.mp h
    exact .member (ihObject hparts.1) (ihProperty hparts.2)
  | call pos callee arguments typeArguments marks ihCallee ihArguments ihTypeArguments =>
    have hparts := List.forall_mem_append.mp h
    have hchildren := List.forall_mem_append.mp hparts.1
    have hlists := List.forall_mem_append.mp hchildren.2
    have hmarks : marks = [] := hparts.2 _ List.mem_cons_self
    have hcallee := ihCallee hchildren.1
    have harguments := ihArguments hlists.1
    have htypeArguments := ihTypeArguments hlists.2
    subst hmarks
    have hnone : ∀ mark ∈ ([] : List Mark), mark < known.length := fun _ h => nomatch h
    -- Without marks nothing has been resolved yet, whether the call names a module or not.
    cases hkind : Reference.ofCallee? callee with
    | none => exact .plain (.inl hkind) hnone hcallee harguments htypeArguments
    | some kind =>
      cases hliteral : arguments.literal? with
      | none => exact .plain (.inr hliteral) hnone hcallee harguments htypeArguments
      | some name =>
        obtain ⟨place, raw, rest, rfl⟩ := exists_of_literal? hliteral
        cases harguments with
        | cons _ hrest =>
          exact @named known pos place name raw kind _ _ _ _ _ _ [] hkind hnone hcallee hrest
            htypeArguments
  | arg spread value ih => exact .arg (ih h)
  | list items ih => exact .list (ih h)
  | record kind fields ih => exact .record (ih h)
  | nil => exact .nil
  | cons head tail ihHead ihTail =>
    have hparts := List.forall_mem_append.mp h
    exact .cons (ihHead hparts.1) (ihTail hparts.2)
  | noField => exact .noField
  | field name value rest ihValue ihRest =>
    have hparts := List.forall_mem_append.mp h
    exact .field (ihValue hparts.1) (ihRest hparts.2)

/-- Both trees have their calls in the same places, so that the same call loses its span. -/
theorem dropSpan (h : Traced known old now) (left : Option Nat) :
    ∃ old' now' left', old.dropSpan left = (old', left') ∧ now.dropSpan left = (now', left') ∧
      Traced known old' now' := by
  induction h generalizing left with
  | atom value => exact ⟨_, _, left, rfl, rfl, .atom value⟩
  | span value => exact ⟨_, _, left, rfl, rfl, .span value⟩
  | str pos value raw => exact ⟨_, _, left, rfl, rfl, .str pos value raw⟩
  | ident _ ih =>
    obtain ⟨_, _, _, hold, hnow, hmore⟩ := ih left
    rw [Tree.dropSpan, Tree.dropSpan, hold, hnow]
    exact ⟨_, _, _, rfl, rfl, .ident hmore⟩
  | member _ _ ihObject ihProperty =>
    obtain ⟨_, _, left', hold, hnow, hobject⟩ := ihObject left
    obtain ⟨_, _, _, hold', hnow', hproperty⟩ := ihProperty left'
    simp only [Tree.dropSpan, hold, hold', hnow, hnow']
    exact ⟨_, _, _, rfl, rfl, .member hobject hproperty⟩
  | @named pos place name raw kind callee _ _ _ rest _ marks hkind hmarks _ _ _ ihCallee ihRest
      ihTypeArguments =>
    obtain ⟨callee₁, _, left₁, hold, hnow, hcallee⟩ := ihCallee left
    obtain ⟨_, _, left₂, hold', hnow', hrest⟩ := ihRest left₁
    obtain ⟨_, _, _, hold'', hnow'', htypeArguments⟩ := ihTypeArguments left₂
    -- A call inside the callee may lose its span, which does not matter to the kind.
    have hkind' : Reference.ofCallee? callee₁ = some kind := by
      rw [← hkind]
      exact Reference.ofCallee?_congr (outline_of_dropSpan hold)
    rw [dropSpan_call hold (dropSpan_literal hold') hold'',
      dropSpan_call hnow (dropSpan_literal hnow') hnow'']
    exact ⟨_, _, _, rfl, rfl, .named hkind' hmarks hcallee hrest htypeArguments⟩
  | @plain pos callee _ _ _ arguments _ marks hplain hmarks _ _ _ ihCallee ihArguments
      ihTypeArguments =>
    obtain ⟨callee₁, _, left₁, hold, hnow, hcallee⟩ := ihCallee left
    obtain ⟨arguments₁, _, left₂, hold', hnow', harguments⟩ := ihArguments left₁
    obtain ⟨_, _, _, hold'', hnow'', htypeArguments⟩ := ihTypeArguments left₂
    have hplain' : Reference.ofCallee? callee₁ = none ∨ arguments₁.literal? = none := by
      rw [Reference.ofCallee?_congr (outline_of_dropSpan hold), literal?_of_dropSpan hold']
      exact hplain
    rw [dropSpan_call hold hold' hold'', dropSpan_call hnow hnow' hnow'']
    exact ⟨_, _, _, rfl, rfl, .plain hplain' hmarks hcallee harguments htypeArguments⟩
  | arg _ ih =>
    obtain ⟨_, _, _, hold, hnow, hvalue⟩ := ih left
    rw [Tree.dropSpan, Tree.dropSpan, hold, hnow]
    exact ⟨_, _, _, rfl, rfl, .arg hvalue⟩
  | list _ ih =>
    obtain ⟨_, _, _, hold, hnow, hitems⟩ := ih left
    rw [Tree.dropSpan, Tree.dropSpan, hold, hnow]
    exact ⟨_, _, _, rfl, rfl, .list hitems⟩
  | record _ ih =>
    obtain ⟨_, _, _, hold, hnow, hfields⟩ := ih left
    rw [Tree.dropSpan, Tree.dropSpan, hold, hnow]
    exact ⟨_, _, _, rfl, rfl, .record hfields⟩
  | nil => exact ⟨_, _, left, rfl, rfl, .nil⟩
  | cons _ _ ihHead ihTail =>
    obtain ⟨_, _, left', hold, hnow, hhead⟩ := ihHead left
    obtain ⟨_, _, _, hold', hnow', htail⟩ := ihTail left'
    simp only [Tree.dropSpan, hold, hold', hnow, hnow']
    exact ⟨_, _, _, rfl, rfl, .cons hhead htail⟩
  | noField => exact ⟨_, _, left, rfl, rfl, .noField⟩
  | field _ _ ihValue ihRest =>
    obtain ⟨_, _, left', hold, hnow, hvalue⟩ := ihValue left
    obtain ⟨_, _, _, hold', hnow', hrest⟩ := ihRest left'
    simp only [Tree.dropSpan, hold, hold', hnow, hnow']
    exact ⟨_, _, _, rfl, rfl, .field hvalue hrest⟩

end Traced

end Tree

section Lists

variable {R : Node → Node → Prop} {xs ys : List Node}

theorem forall₂_getElem? (h : List.Forall₂ R xs ys) (place : Nat) :
    (xs[place]? = none ∧ ys[place]? = none) ∨
      ∃ x y, xs[place]? = some x ∧ ys[place]? = some y ∧ R x y := by
  induction h generalizing place with
  | nil => exact .inl ⟨rfl, rfl⟩
  | @cons x y _ _ hhead _ ih =>
    cases place with
    | zero => exact .inr ⟨x, y, rfl, rfl, hhead⟩
    | succ place => exact ih place

theorem forall₂_set {x y : Node} (h : List.Forall₂ R xs ys) (hxy : R x y) (place : Nat) :
    List.Forall₂ R (xs.set place x) (ys.set place y) := by
  induction h generalizing place with
  | nil => exact .nil
  | cons hhead htail ih =>
    cases place with
    | zero => exact .cons hxy htail
    | succ place => exact .cons hhead (ih place)

theorem forall₂_eraseIdx (h : List.Forall₂ R xs ys) (place : Nat) :
    List.Forall₂ R (xs.eraseIdx place) (ys.eraseIdx place) := by
  induction h generalizing place with
  | nil => exact .nil
  | cons hhead htail ih =>
    cases place with
    | zero => exact htail
    | succ place => exact .cons hhead (ih place)

theorem forall₂_modify {f : Node → Node} (hf : ∀ {x y : Node}, R x y → R x (f y))
    (h : List.Forall₂ R xs ys) (place : Nat) : List.Forall₂ R xs (ys.modify place f) := by
  induction h generalizing place with
  | nil =>
    rw [List.modify_nil]
    exact .nil
  | cons hhead htail ih =>
    cases place with
    | zero => exact .cons (hf hhead) htail
    | succ place => exact .cons hhead (ih place)

/-- What holds between items and keeps holding when an item is amended holds in any scope. -/
theorem forall₂_amend {judge : Call → Verdict}
    (hjudge : ∀ {x y : Node}, R x y → R x (y.amend judge)) (h : List.Forall₂ R xs ys)
    (scope : Scope) : List.Forall₂ R xs (scope.amend judge ys) := by
  cases scope with
  | program => exact List.forall₂_map_right_iff.mpr (h.imp fun _ _ hitem => hjudge hitem)
  | root => exact List.forall₂_map_right_iff.mpr (h.imp fun _ _ hitem => hjudge hitem)
  | item index => exact forall₂_modify hjudge h index

end Lists

theorem traced_dropSpans {known : List Settings} {old now : List Node}
    (h : List.Forall₂ (Tree.Traced known) old now) (left : Option Nat) :
    List.Forall₂ (Tree.Traced known) (dropSpans old left) (dropSpans now left) := by
  induction h generalizing left with
  | nil => exact .nil
  | cons hhead _ ih =>
    obtain ⟨_, _, left', hold, hnow, hitem⟩ := hhead.dropSpan left
    simp only [dropSpans, hold, hnow]
    exact .cons hitem (ih left')

/-- An edit of both programs keeps them together, as long as it brings in no marks. -/
theorem traced_apply {known : List Settings} {old now : List Node} {change : Change}
    (hchange : (Step.edit change).MarkFree) (h : List.Forall₂ (Tree.Traced known) old now) :
    List.Forall₂ (Tree.Traced known) (change.apply old) (change.apply now) := by
  cases change with
  | copy item =>
    refine List.rel_append h ?_
    rcases forall₂_getElem? h item with ⟨hold, hnow⟩ | ⟨x, y, hold, hnow, hitem⟩
    · rw [hold, hnow]
      exact .nil
    · rw [hold, hnow]
      exact .cons hitem .nil
  | remove item => exact forall₂_eraseIdx h item
  | swap item other =>
    rw [Change.apply, Change.apply]
    rcases forall₂_getElem? h item with ⟨hold, hnow⟩ | ⟨x, y, hold, hnow, hitem⟩
    · rw [hold, hnow]
      exact h
    · rcases forall₂_getElem? h other with ⟨hold', hnow'⟩ | ⟨x', y', hold', hnow', hother⟩
      · rw [hold, hnow, hold', hnow']
        exact h
      · rw [hold, hnow, hold', hnow']
        exact forall₂_set (forall₂_set h hother item) hitem other
  | append program =>
    refine List.rel_append h (List.forall₂_same.mpr ?_)
    intro item hmem
    exact .refl (hchange item hmem)
  | dropSpan call => exact traced_dropSpans h (some call)

/-! ## 3. Sessions -/

/-- A session without visits beside one with them: both have the same passes, and the program of the
second is traced to that of the first. -/
structure Session.Beside (bare session : Session) : Prop where
  settings : bare.settings = session.settings
  program : bare.program.Traced session.settings session.program

namespace Session.Beside

variable {bare session : Session}

theorem visit (h : Beside bare session) (number : Nat) (scope : Scope) :
    Beside bare (session.next (.visit number scope)) := by
  have hsettings := settings_visit session number scope
  rw [next_visit]
  refine ⟨h.settings.trans hsettings.symm, ?_⟩
  rw [hsettings]
  cases hpass : session.passes[number]? with
  | none =>
    rw [visit_of_none hpass]
    exact h.program
  | some pass =>
    have hmark : session.settings[number]? = some pass.settings := by
      rw [Session.settings, List.getElem?_map, hpass, Option.map_some]
    rw [visit_of_some hpass]
    exact ⟨h.program.kind, h.program.span, h.program.interpreter,
      forall₂_amend (fun hitem => hitem.amended hmark) h.program.body scope⟩

theorem edit {change : Change} (hchange : (Step.edit change).MarkFree) (h : Beside bare session) :
    Beside (bare.next (.edit change)) (session.next (.edit change)) := by
  rw [next_edit, next_edit]
  exact ⟨h.settings, h.program.kind, h.program.span, h.program.interpreter,
    traced_apply hchange h.program.body⟩

theorem create (source : SettingsSource) (h : Beside bare session) :
    Beside (bare.next (.create source)) (session.next (.create source)) := by
  cases hload : source.load with
  | error problem =>
    rw [next_create_of_error hload, next_create_of_error hload]
    exact h
  | ok settings =>
    refine ⟨?_, ?_⟩
    · rw [settings_create hload, settings_create hload, h.settings]
    · rw [settings_create hload, next_create_of_ok hload, next_create_of_ok hload]
      exact ⟨h.program.kind, h.program.span, h.program.interpreter,
        h.program.body.imp fun _ _ hitem => hitem.append [settings]⟩

/-- Whatever the steps, the session without visits stays beside the one with them. -/
theorem after {steps : List Step} (hsteps : ∀ step ∈ steps, step.MarkFree)
    (h : Beside bare session) :
    Beside (bare.after (steps.filter fun step => !step.isVisit)) (session.after steps) := by
  induction steps generalizing bare session with
  | nil => exact h
  | cons step rest ih =>
    have hrest : ∀ step ∈ rest, step.MarkFree := fun s hs => hsteps s (List.mem_cons_of_mem step hs)
    have hstep : step.MarkFree := hsteps step List.mem_cons_self
    cases step with
    | create source => exact ih hrest (h.create source)
    | visit number scope => exact ih hrest (h.visit number scope)
    | edit change => exact ih hrest (h.edit hstep)

end Session.Beside

/-- The marks tell the history of a program. Whatever steps a session takes from a program without
marks, its program is the one that the same steps without the visits give, except for marks on calls
and for the first literal of each call that names a module; that literal holds what the passes
behind the marks of its call make of the name, in the order of the marks. -/
theorem after_traced {start : Session} {steps : List Step} (hstart : start.program.MarkFree)
    (hsteps : ∀ step ∈ steps, step.MarkFree) :
    Program.Traced (start.after steps).settings
      (start.after (steps.filter fun step => !step.isVisit)).program
      (start.after steps).program := by
  have hbeside : Session.Beside start start :=
    ⟨rfl, rfl, rfl, rfl, List.forall₂_same.mpr fun item hmem => .refl (hstart item hmem)⟩
  exact (hbeside.after hsteps).program

/-- Visits of three passes among edits of all kinds. -/
def Session.smallSteps : List Step :=
  [.visit 0 .program, .edit (.copy 0), .visit 1 (.item 1), .create (.given (.renaming "c" "d")),
    .edit (.append Session.small.program), .visit 2 .root, .visit 1 .root, .edit (.swap 0 4),
    .edit (.remove 2), .edit (.dropSpan 0)]

theorem small_after_traced :
    Session.small.program.MarkFree ∧ (∀ step ∈ Session.smallSteps, step.MarkFree) ∧
      Program.Traced (Session.small.after Session.smallSteps).settings
        (Session.small.after (Session.smallSteps.filter fun step => !step.isVisit)).program
        (Session.small.after Session.smallSteps).program := by
  have hstart : Session.small.program.MarkFree := by decide
  have hsteps : ∀ step ∈ Session.smallSteps, step.MarkFree := by
    simp only [Session.smallSteps, List.forall_mem_cons, Step.MarkFree, hstart, true_and]
    exact fun _ h => nomatch h
  exact ⟨hstart, hsteps, after_traced hstart hsteps⟩

example :
    ((Session.small.after Session.smallSteps).program.body.flatMap Tree.calls).map
        (fun call => (call.arguments.literal?, call.marks)) =
      [(some "c", [2, 1]), (some "d", [0, 1, 2]), (some "a", [2, 1]), (some "c", [0, 2, 1])] := by
  decide

end Retarget
