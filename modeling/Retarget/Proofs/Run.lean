import Retarget.Pass.Run
import Retarget.Proofs.Amendment

/-!
# A run over a part of a program

A run takes in the items of a program that lie in its scope. It amends each of them at once, reports
on the calls in the scope, and adds the calls that do not carry its mark yet to the count of the
pass.

Results:
1. `run_eq`: what a run leaves behind, in any scope.
2. `getElem?_amend`, `calls_amend`: a run changes the items in its scope, each for itself, and no
   other, and so the calls in its scope.
3. `run_at_once`: a visit judges every call as it stood before the visit, whatever the tree, the
   settings and the marks that are there already.
-/

namespace Retarget

/-! ## Definitions -/

namespace Scope

/-- Whether the item at a place lies in a scope. -/
def covers : Scope → Nat → Bool
  | program, _ => true
  | root, _ => true
  | item index, place => place = index

/-- The items of a body that lie in a scope. -/
def items : Scope → List Node → List Node
  | program, body => body
  | root, body => body
  | item index, body => body[index]?.toList

/-- The calls in a scope. -/
def calls (scope : Scope) (body : List Node) : List Call :=
  (scope.items body).flatMap Tree.calls

/-- Amends the items of a body that lie in a scope. -/
def amend (judge : Call → Verdict) : Scope → List Node → List Node
  | program, body => body.map (Tree.amend judge)
  | root, body => body.map (Tree.amend judge)
  | item index, body => body.modify index (Tree.amend judge)

/-- What the log says at the end of a scope. -/
def closing : Scope → Nat → List Event
  | program, processed => [.finished processed]
  | root, _ => []
  | item _, _ => []

end Scope

/-- A pass that has counted those of the calls that do not carry its mark. -/
def Pass.tally (pass : Pass) (mark : Mark) (calls : List Call) : Pass :=
  { pass with processed := pass.processed + calls.countP fun call => mark ∉ call.marks }

/-! ## 1. What a run leaves behind -/

theorem visitItems_eq (settings : Settings) (mark : Mark) (body : List Node) :
    visitItems settings mark body =
      ⟨body.map (Tree.amend (settings.verdict mark)),
        (body.flatMap Tree.calls).flatMap (settings.report mark),
        (body.flatMap Tree.calls).countP fun call => mark ∉ call.marks⟩ := by
  induction body with
  | nil => rfl
  | cons item rest ih =>
    rw [visitItems, ih, Tree.visit_eq, List.flatMap_cons, List.flatMap_append, List.countP_append]
    rfl

theorem visitRoot_eq (settings : Settings) (mark : Mark) (program : Program) :
    program.visitRoot settings mark =
      ⟨{ program with body := program.body.map (Tree.amend (settings.verdict mark)) },
        (program.body.flatMap Tree.calls).flatMap (settings.report mark),
        (program.body.flatMap Tree.calls).countP fun call => mark ∉ call.marks⟩ := by
  rw [Program.visitRoot, visitItems_eq]
  rfl

theorem visitItem_eq (settings : Settings) (mark : Mark) (index : Nat) (program : Program) :
    program.visitItem settings mark index =
      ⟨{ program with body := program.body.modify index (Tree.amend (settings.verdict mark)) },
        ((Scope.item index).calls program.body).flatMap (settings.report mark),
        ((Scope.item index).calls program.body).countP fun call => mark ∉ call.marks⟩ := by
  rw [Program.visitItem, Scope.calls, Scope.items]
  cases h : program.body[index]? with
  | none =>
    rw [List.modify_eq_self (List.getElem?_eq_none_iff.mp h)]
    rfl
  | some item =>
    have hset : program.body.modify index (Tree.amend (settings.verdict mark)) =
        program.body.set index (item.amend (settings.verdict mark)) := by
      rw [List.modify_eq_set, h]
      rfl
    rw [Option.toList_some, List.flatMap_singleton, hset]
    show (item.visit settings mark).map _ = _
    rw [Tree.visit_eq]
    rfl

/-- What a run leaves behind: the amended items of its scope, a count that has grown by the calls
without the mark, and a report on each call. -/
theorem run_eq (pass : Pass) (mark : Mark) (program : Program) (scope : Scope) :
    pass.run mark program scope =
      ⟨pass.tally mark (scope.calls program.body),
        { program with body := scope.amend (pass.settings.verdict mark) program.body },
        (scope.calls program.body).flatMap (pass.settings.report mark) ++
          scope.closing (pass.tally mark (scope.calls program.body)).processed⟩ := by
  cases scope with
  | program =>
    rw [Pass.run, visitRoot_eq]
    rfl
  | root =>
    rw [Pass.run, visitRoot_eq, Scope.closing, List.append_nil]
    rfl
  | item index =>
    rw [Pass.run, visitItem_eq, Scope.closing, List.append_nil]
    rfl

/-! ## 2. One item at a time -/

namespace Scope

theorem getElem?_amend (judge : Call → Verdict) (scope : Scope) (body : List Node) (place : Nat) :
    (scope.amend judge body)[place]? =
      if scope.covers place then body[place]?.map (Tree.amend judge) else body[place]? := by
  cases scope with
  | program => exact List.getElem?_map
  | root => exact List.getElem?_map
  | item index =>
    rw [amend, covers]
    by_cases h : place = index
    · rw [h, List.getElem?_modify_eq, decide_eq_true rfl, if_pos rfl]
      rfl
    · rw [List.getElem?_modify_ne _ _ (Ne.symm h), decide_eq_false h]
      rfl

/-- An item of an amended body has been amended, or was there before. -/
theorem mem_amend {judge : Call → Verdict} {scope : Scope} {body : List Node} {item : Node}
    (h : item ∈ scope.amend judge body) :
    ∃ before ∈ body, item = before ∨ item = before.amend judge := by
  obtain ⟨place, hplace⟩ := List.mem_iff_getElem?.mp h
  rw [getElem?_amend] at hplace
  split at hplace
  · obtain ⟨before, hbefore, rfl⟩ := Option.map_eq_some_iff.mp hplace
    exact ⟨before, List.mem_of_getElem? hbefore, .inr rfl⟩
  · exact ⟨item, List.mem_of_getElem? hplace, .inl rfl⟩

theorem items_amend (judge : Call → Verdict) (scope : Scope) (body : List Node) :
    scope.items (scope.amend judge body) = (scope.items body).map (Tree.amend judge) := by
  cases scope with
  | program => rfl
  | root => rfl
  | item index =>
    rw [items, items, amend, List.getElem?_modify_eq]
    cases body[index]? <;> rfl

/-- The calls in a scope are amended one by one. -/
theorem calls_amend (judge : Call → Verdict) (scope : Scope) (body : List Node) :
    scope.calls (scope.amend judge body) = (scope.calls body).map (Call.amend judge) := by
  rw [calls, calls, items_amend, List.flatMap_map, List.map_flatMap]
  exact congrArg (List.flatMap · _) (funext (Tree.calls_amend judge))

theorem mem_items {scope : Scope} {body : List Node} {place : Nat} {item : Node}
    (hcovers : scope.covers place = true) (hitem : body[place]? = some item) :
    item ∈ scope.items body := by
  cases scope with
  | program => exact List.mem_of_getElem? hitem
  | root => exact List.mem_of_getElem? hitem
  | item index =>
    rw [covers, decide_eq_true_iff] at hcovers
    rw [items, ← hcovers, hitem]
    exact List.mem_singleton_self item

theorem mem_calls {scope : Scope} {body : List Node} {call : Call} (h : call ∈ scope.calls body) :
    ∃ item ∈ body, call ∈ item.calls := by
  obtain ⟨item, hitem, hcall⟩ := List.mem_flatMap.mp h
  cases scope with
  | program => exact ⟨item, hitem, hcall⟩
  | root => exact ⟨item, hitem, hcall⟩
  | item index => exact ⟨item, List.mem_of_getElem? (Option.mem_toList.mp hitem), hcall⟩

end Scope

/-! ## 3. A visit judges the tree as it was -/

/-- A visit changes a tree of any shape all at once, each call judged as it stood before: a call
without the mark gets it and is pointed at its target, a call with the mark keeps its own marks and
its own literal, and the calls are those of before, one by one. A call at the base of an optional
chain is none of these calls and is not judged at all, though everything below it is. Taken over any
scope of a program a pass amends the items there and counts exactly the calls that did not carry its
mark. -/
theorem run_at_once (pass : Pass) (mark : Mark) :
    (∀ (s : Shape) (tree : Tree s),
      (tree.visit pass.settings mark).result = tree.amend (pass.settings.verdict mark) ∧
      (tree.visit pass.settings mark).result.calls =
        tree.calls.map (Call.amend (pass.settings.verdict mark)) ∧
      (tree.visit pass.settings mark).count = tree.calls.countP fun call => mark ∉ call.marks) ∧
    (∀ (pos : Span) (callee : Node) (arguments : Tree .items) (typeArguments : Node)
        (marks : List Mark),
      ((Node.unlink (.call pos callee arguments typeArguments marks)).visit pass.settings
          mark).result =
        Node.unlink (.call pos (callee.amend (pass.settings.verdict mark))
          (arguments.amend (pass.settings.verdict mark))
          (typeArguments.amend (pass.settings.verdict mark)) marks)) ∧
    (∀ fields : List (String × Node),
      (Node.recordOf "OptionalChainingExpression" fields).calls =
        (fields.flatMap fun entry =>
          if entry.1 = "base" then Node.callsBelow entry.2 else entry.2.calls) ∧
      ((Node.recordOf "OptionalChainingExpression" fields).visit pass.settings mark).result =
        Node.recordOf "OptionalChainingExpression" (fields.map fun entry =>
          (entry.1, if entry.1 = "base" then Node.amendBelow (pass.settings.verdict mark) entry.2
            else entry.2.amend (pass.settings.verdict mark)))) ∧
    ∀ (program : Program) (scope : Scope),
      (pass.run mark program scope).program =
        { program with body := scope.amend (pass.settings.verdict mark) program.body } ∧
      (pass.run mark program scope).pass.settings = pass.settings ∧
      (pass.run mark program scope).pass.processed =
        pass.processed + (scope.calls program.body).countP fun call => mark ∉ call.marks := by
  refine ⟨?_, ?_, ?_, ?_⟩
  · intro s tree
    rw [Tree.visit_eq]
    exact ⟨rfl, Tree.calls_amend _ tree, rfl⟩
  · intro pos callee arguments typeArguments marks
    rw [Tree.visit_eq]
    exact Node.amend_unlink _ _
  · intro fields
    rw [Tree.visit_eq]
    exact ⟨Node.calls_chaining fields, Node.amend_chaining _ fields⟩
  · intro program scope
    rw [run_eq]
    exact ⟨rfl, rfl, rfl⟩

end Retarget
