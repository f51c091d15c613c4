import Mathlib.Logic.Basic
import Retarget.Program.Change
import Retarget.Proofs.Amendment

/-!
# What a change to a program keeps

Taking away the span of a call changes nothing else about the tree: the outline, the literal in the
first place and the marks of the calls stay. The other changes move whole items.

Results:
1. `dropSpan_call`: a call that is reached loses its span; one that is passed is counted.
2. `outline_dropSpan`, `literal?_dropSpan`, `marks_dropSpan`: what stays.
3. `item_apply`, `mem_apply`: an item of a changed program was there before, apart from the span of
   a call, or has just been appended.
-/

namespace Retarget

namespace Tree

/-! ## 1. A call that is reached -/

/-- The span of a call when so many calls are left before the one to lose its span. -/
def spanReached (pos : Span) : Option Nat → Span
  | none => pos
  | some 0 => .dummy
  | some (_ + 1) => pos

/-- How many calls are left once a call has been passed. -/
def leftBehind : Option Nat → Option Nat
  | none => none
  | some 0 => none
  | some (left + 1) => some left

theorem dropSpan_call {pos : Span} {callee callee' typeArguments typeArguments' : Node}
    {arguments arguments' : Tree .items} {marks : List Mark} {left left₁ left₂ left₃ : Option Nat}
    (hcallee : callee.dropSpan left = (callee', left₁))
    (harguments : arguments.dropSpan left₁ = (arguments', left₂))
    (htypeArguments : typeArguments.dropSpan left₂ = (typeArguments', left₃)) :
    (call pos callee arguments typeArguments marks).dropSpan left =
      (call (spanReached pos left₃) callee' arguments' typeArguments' marks, leftBehind left₃) := by
  simp only [dropSpan, hcallee, harguments, htypeArguments]
  obtain _ | _ | passed := left₃ <;> rfl

/-- A literal in the first place holds no call. -/
theorem dropSpan_literal {place : Span} {name : String} {raw : Option String}
    {rest rest' : Tree .items} {left left' : Option Nat} (h : rest.dropSpan left = (rest', left')) :
    (cons (arg none (str place name raw)) rest).dropSpan left =
      (cons (arg none (str place name raw)) rest', left') := by
  simp only [dropSpan, h]

/-! ## 2. What stays -/

theorem outline_dropSpan {s : Shape} (tree : Tree s) (left : Option Nat) :
    (tree.dropSpan left).1.outline = tree.outline := by
  induction tree generalizing left with
  | atom value => rfl
  | span value => rfl
  | str pos value raw => rfl
  | ident pos name more ih => exact congrArg (ident _ name) (ih left)
  | member pos object property ihObject ihProperty =>
    exact congrArg₂ (member _) (ihObject left) (ihProperty _)
  | call pos callee arguments typeArguments marks ihCallee ihArguments ihTypeArguments =>
    rw [dropSpan_call rfl rfl rfl, outline, outline, ihCallee, ihArguments, ihTypeArguments]
  | arg spread value ih => exact congrArg (arg _) (ih left)
  | list items ih => exact congrArg list (ih left)
  | record kind fields ih => exact congrArg (record kind) (ih left)
  | nil => rfl
  | cons head tail ihHead ihTail => exact congrArg₂ cons (ihHead left) (ihTail _)
  | noField => rfl
  | field name value rest ihValue ihRest =>
    exact congrArg₂ (field name) (ihValue left) (ihRest _)

theorem literal?_dropSpan (arguments : Tree .items) (left : Option Nat) :
    (arguments.dropSpan left).1.literal? = arguments.literal? := by
  cases arguments with
  | nil => rfl
  | cons head rest =>
    cases head with
    | arg spread value =>
      cases value with
      | call pos callee arguments typeArguments marks =>
        rw [dropSpan, dropSpan, dropSpan_call rfl rfl rfl]
        cases spread <;> rfl
      | _ => cases spread <;> rfl
    | call pos callee arguments typeArguments marks =>
      rw [dropSpan, dropSpan_call rfl rfl rfl]
      rfl
    | _ => rfl

theorem outline_of_dropSpan {s : Shape} {tree after : Tree s} {left left' : Option Nat}
    (h : tree.dropSpan left = (after, left')) : after.outline = tree.outline := by
  rw [← outline_dropSpan tree left, h]

theorem literal?_of_dropSpan {arguments after : Tree .items} {left left' : Option Nat}
    (h : arguments.dropSpan left = (after, left')) : after.literal? = arguments.literal? := by
  rw [← literal?_dropSpan arguments left, h]

theorem marks_dropSpan {s : Shape} (tree : Tree s) (left : Option Nat) :
    (tree.dropSpan left).1.calls.map Call.marks = tree.calls.map Call.marks := by
  induction tree generalizing left with
  | atom value => rfl
  | span value => rfl
  | str pos value raw => rfl
  | ident pos name more ih => exact ih left
  | member pos object property ihObject ihProperty =>
    rw [dropSpan, calls, calls, List.map_append, List.map_append, ihObject, ihProperty]
  | call pos callee arguments typeArguments marks ihCallee ihArguments ihTypeArguments =>
    rw [dropSpan_call rfl rfl rfl, calls, calls]
    simp only [List.map_append, List.map_cons, List.map_nil, ihCallee, ihArguments,
      ihTypeArguments]
  | arg spread value ih => exact ih left
  | list items ih => exact ih left
  | record kind fields ih => exact ih left
  | nil => rfl
  | cons head tail ihHead ihTail =>
    rw [dropSpan, calls, calls, List.map_append, List.map_append, ihHead, ihTail]
  | noField => rfl
  | field name value rest ihValue ihRest =>
    rw [dropSpan, calls, calls, List.map_append, List.map_append, ihValue, ihRest]

end Tree

/-! ## 3. Items of a changed program -/

theorem mem_dropSpans {body : List Node} {left : Option Nat} {item : Node}
    (h : item ∈ dropSpans body left) :
    ∃ before ∈ body, ∃ left', item = (before.dropSpan left').1 := by
  induction body generalizing left with
  | nil => exact nomatch h
  | cons first rest ih =>
    rcases List.mem_cons.mp h with rfl | hrest
    · exact ⟨first, List.mem_cons_self, left, rfl⟩
    · obtain ⟨before, hbefore, hitem⟩ := ih hrest
      exact ⟨before, List.mem_cons_of_mem first hbefore, hitem⟩

/-- An item of a changed program was there before, apart from the span of a call, or has just been
appended. -/
theorem item_apply {body : List Node} {change : Change} {item : Node}
    (h : item ∈ change.apply body) :
    (∃ before ∈ body, item = before ∨ ∃ left, item = (before.dropSpan left).1) ∨
      ∃ program : Program, change = .append program ∧ item ∈ program.body := by
  cases change with
  | copy place =>
    rcases List.mem_append.mp h with hmem | hmem
    · exact .inl ⟨item, hmem, .inl rfl⟩
    · exact .inl ⟨item, List.mem_of_getElem? (Option.mem_toList.mp hmem), .inl rfl⟩
  | remove place => exact .inl ⟨item, List.mem_of_mem_eraseIdx h, .inl rfl⟩
  | swap place other =>
    refine .inl ⟨item, ?_, .inl rfl⟩
    rw [Change.apply] at h
    split at h
    · next a b ha hb =>
      rcases List.mem_or_eq_of_mem_set h with h | rfl
      · rcases List.mem_or_eq_of_mem_set h with h | rfl
        · exact h
        · exact List.mem_of_getElem? hb
      · exact List.mem_of_getElem? ha
    · exact h
  | append program =>
    rcases List.mem_append.mp h with hmem | hmem
    · exact .inl ⟨item, hmem, .inl rfl⟩
    · exact .inr ⟨program, rfl, hmem⟩
  | dropSpan call =>
    obtain ⟨before, hbefore, hitem⟩ := mem_dropSpans h
    exact .inl ⟨before, hbefore, .inr hitem⟩

/-- An item of a changed program has the marks of an item of before, or has just been appended. -/
theorem mem_apply {body : List Node} {change : Change} {item : Node}
    (h : item ∈ change.apply body) :
    (∃ before ∈ body, item.calls.map Call.marks = before.calls.map Call.marks) ∨
      ∃ program : Program, change = .append program ∧ item ∈ program.body := by
  rcases item_apply h with ⟨before, hbefore, rfl | ⟨left, rfl⟩⟩ | happend
  · exact .inl ⟨item, hbefore, rfl⟩
  · exact .inl ⟨before, hbefore, Tree.marks_dropSpan before left⟩
  · exact .inr happend

end Retarget
