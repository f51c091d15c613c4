import Retarget.Proofs.Amendment

/-!
# Trees that a pass has been through

A tree is marked by a pass when each of its calls carries the mark. Every visit marks the tree that
it goes through, and no later visit takes a mark away; for the pass itself a marked tree is done
with.

Results:
1. `amend_of_marked`, `countP_of_marked`, `report_of_marked`: on a marked tree one more visit
   changes nothing, counts nothing, and logs that each call has been processed.
2. `marked_amend_self`, `marked_amend`: a visit leaves a marked tree, and keeps the marks of others.
-/

namespace Retarget.Tree

/-- Every call of the tree carries the mark. -/
def Marked (mark : Mark) {s : Shape} (tree : Tree s) : Prop :=
  ∀ call ∈ tree.calls, mark ∈ call.marks

/-! ## 1. One more visit -/

/-- An amendment that leaves every call as it is changes nothing. -/
theorem amend_eq_self {judge : Call → Verdict} {s : Shape} {tree : Tree s}
    (h : ∀ call ∈ tree.calls, judge call = ⟨none, call.marks⟩) : tree.amend judge = tree := by
  induction tree with
  | atom value => rfl
  | span value => rfl
  | str pos value raw => rfl
  | ident pos name more ih => rw [amend, ih h]
  | member pos object property ihObject ihProperty =>
    have hparts := List.forall_mem_append.mp h
    rw [amend, ihObject hparts.1, ihProperty hparts.2]
  | call pos callee arguments typeArguments marks ihCallee ihArguments ihTypeArguments =>
    have hparts := List.forall_mem_append.mp h
    have hchildren := List.forall_mem_append.mp hparts.1
    have hlists := List.forall_mem_append.mp hchildren.2
    rw [amend, hparts.2 _ List.mem_cons_self, ihCallee hchildren.1, ihArguments hlists.1,
      ihTypeArguments hlists.2, point_none]
  | arg spread value ih => rw [amend, ih h]
  | list items ih => rw [amend, ih h]
  | record kind fields ih => rw [amend, ih h]
  | nil => rfl
  | cons head tail ihHead ihTail =>
    have hparts := List.forall_mem_append.mp h
    rw [amend, ihHead hparts.1, ihTail hparts.2]
  | noField => rfl
  | field name value rest ihValue ihRest =>
    have hparts := List.forall_mem_append.mp h
    rw [amend, ihValue hparts.1, ihRest hparts.2]

theorem amend_of_marked {settings : Settings} {mark : Mark} {s : Shape} {tree : Tree s}
    (h : tree.Marked mark) : tree.amend (settings.verdict mark) = tree :=
  amend_eq_self fun call hcall => Settings.verdict_of_mem (h call hcall)

theorem countP_of_marked {mark : Mark} {calls : List Call} (h : ∀ call ∈ calls, mark ∈ call.marks) :
    (calls.countP fun call => mark ∉ call.marks) = 0 := by
  rw [List.countP_eq_zero]
  intro call hcall
  rw [decide_eq_true_eq]
  exact fun hnot => hnot (h call hcall)

theorem report_of_marked {settings : Settings} {mark : Mark} {calls : List Call}
    (h : ∀ call ∈ calls, mark ∈ call.marks) :
    calls.flatMap (settings.report mark) = List.replicate calls.length .alreadyProcessed := by
  induction calls with
  | nil => rfl
  | cons call rest ih =>
    have hrest := ih fun other hother => h other (List.mem_cons_of_mem call hother)
    rw [List.flatMap_cons, Settings.report_of_mem (h call List.mem_cons_self), hrest]
    rfl

/-! ## 2. Marks stay -/

theorem mem_verdict {settings : Settings} {mark other : Mark} {call : Call} :
    other ∈ (settings.verdict mark call).marks ↔ other ∈ call.marks ∨ other = mark := by
  by_cases h : mark ∈ call.marks
  · rw [Settings.verdict_of_mem h]
    constructor
    · exact Or.inl
    · rintro (hother | rfl)
      · exact hother
      · exact h
  · rw [Settings.verdict_of_not_mem h, List.mem_append, List.mem_singleton]

/-- A visit leaves its mark on every call. -/
theorem marked_amend_self (settings : Settings) (mark : Mark) {s : Shape} (tree : Tree s) :
    (tree.amend (settings.verdict mark)).Marked mark := by
  intro call hcall
  rw [calls_amend] at hcall
  obtain ⟨before, _, rfl⟩ := List.mem_map.mp hcall
  exact mem_verdict.mpr (.inr rfl)

/-- A visit of one pass keeps the marks of the others. -/
theorem marked_amend {settings : Settings} {mark other : Mark} {s : Shape} {tree : Tree s}
    (h : tree.Marked other) : (tree.amend (settings.verdict mark)).Marked other := by
  intro call hcall
  rw [calls_amend] at hcall
  obtain ⟨before, hbefore, rfl⟩ := List.mem_map.mp hcall
  exact mem_verdict.mpr (.inl (h before hbefore))

end Retarget.Tree
