import Mathlib.Data.List.Nodup
import Mathlib.Data.List.Perm.Basic
import Retarget.Proofs.Balance
import Retarget.Proofs.History

/-!
# The books of a session

What a pass has counted and what the program shows of it are two books on the same events, and
between the visits the program is edited. They agree all the same: a call that has been counted is
in the program with its mark, or has been removed with it, and a call with a mark has been counted
or is a copy.

Results:
1. `onlyCallsMarked_outline`: whether marks are found on calls only is seen in the outline.
2. `wellMarked_next`, `wellMarked_after`: marks stay where they belong, each at most once.
3. `carriers_apply`: by how much an edit changes the number of calls with a mark.
4. `count_next`, `count_after`, `count_conserved`: the books agree after every step, after every
   run, and after every run from the beginning.
-/

namespace Retarget

/-! ## Definitions -/

/-- The names of the fields that a node shows. -/
def View.names : View → List String
  | object fields => fields.map Prod.fst
  | atom _ => []
  | list _ => []

/-- Whether a node is a call. A call behind an optional chain is none. -/
def Node.isCall : Node → Bool
  | .call _ _ _ _ _ => true
  | _ => false

namespace Tree

/-- All nodes of a tree. -/
def nodes : ∀ {s : Shape}, Tree s → List Node
  | _, atom value => [atom value]
  | _, span value => [span value]
  | _, str pos value raw => [str pos value raw]
  | _, ident pos name more => ident pos name more :: more.nodes
  | _, member pos object property => member pos object property :: (object.nodes ++ property.nodes)
  | _, call pos callee arguments typeArguments marks =>
    call pos callee arguments typeArguments marks ::
      (callee.nodes ++ (arguments.nodes ++ typeArguments.nodes))
  | _, arg spread value => arg spread value :: value.nodes
  | _, list items => list items :: items.nodes
  | _, record kind fields => record kind fields :: fields.nodes
  | _, nil => []
  | _, cons head tail => head.nodes ++ tail.nodes
  | _, noField => []
  | _, field _ value rest => value.nodes ++ rest.nodes

/-- A node of the tree that shows marks is a call. -/
def OnlyCallsMarked {s : Shape} (tree : Tree s) : Prop :=
  ∀ node ∈ tree.nodes, "marks" ∈ (Node.view node).names → Node.isCall node = true

instance {s : Shape} (tree : Tree s) : Decidable tree.OnlyCallsMarked :=
  inferInstanceAs (Decidable (∀ node ∈ tree.nodes, _ → _))

/-- The marks in a tree are where they belong: a call has each at most once and only those of the
passes that have been made so far, and no other node has any. -/
structure WellMarked (made : Nat) {s : Shape} (tree : Tree s) : Prop where
  calls : ∀ call ∈ tree.calls, call.marks.Nodup ∧ ∀ mark ∈ call.marks, mark < made
  others : tree.OnlyCallsMarked

end Tree

/-- No node of the program has marks. -/
structure Program.Unmarked (program : Program) : Prop where
  calls : program.MarkFree
  others : ∀ item ∈ program.body, item.OnlyCallsMarked

namespace Step

/-- A step brings in no node with marks. -/
def Unmarked : Step → Prop
  | edit (.append program) => program.Unmarked
  | _ => True

/-- The items that a step duplicates. -/
def copies : Step → List Node → List Node
  | edit (.copy item), body => body[item]?.toList
  | _, _ => []

/-- The items that a step deletes. -/
def removals : Step → List Node → List Node
  | edit (.remove item), body => body[item]?.toList
  | _, _ => []

end Step

namespace Session

/-- What a pass has counted; nothing, when it has not been made yet. -/
def count (session : Session) (number : Nat) : Nat :=
  session.processed[number]?.getD 0

/-- The number of calls with a mark among the items that each step takes from the program, as it is
when the step is done. -/
def turnover (taken : Step → List Node → List Node) (mark : Mark) : Session → List Step → Nat
  | _, [] => 0
  | session, step :: rest =>
    carriers mark (taken step session.program.body) +
      (session.next step).turnover taken mark rest

/-- The marks in the program are where they belong. -/
def WellMarked (session : Session) : Prop :=
  ∀ item ∈ session.program.body, item.WellMarked session.passes.length

end Session

/-! ## 1. Nodes that show marks -/

namespace Tree

theorem nodes_outline {s : Shape} (tree : Tree s) :
    tree.outline.nodes = tree.nodes.map outline := by
  induction tree with
  | atom value => rfl
  | span value => rfl
  | str pos value raw => rfl
  | ident pos name more ih => rw [outline, nodes, nodes, ih, List.map_cons, outline]
  | member pos object property ihObject ihProperty =>
    rw [outline, nodes, nodes, ihObject, ihProperty, List.map_cons, List.map_append, outline]
  | call pos callee arguments typeArguments marks ihCallee ihArguments ihTypeArguments =>
    rw [outline, nodes, nodes, ihCallee, ihArguments, ihTypeArguments, List.map_cons,
      List.map_append, List.map_append, outline]
  | arg spread value ih => rw [outline, nodes, nodes, ih, List.map_cons, outline]
  | list items ih => rw [outline, nodes, nodes, ih, List.map_cons, outline]
  | record kind fields ih => rw [outline, nodes, nodes, ih, List.map_cons, outline]
  | nil => rfl
  | cons head tail ihHead ihTail => rw [outline, nodes, nodes, ihHead, ihTail, List.map_append]
  | noField => rfl
  | field name value rest ihValue ihRest =>
    rw [outline, nodes, nodes, ihValue, ihRest, List.map_append]

theorem toFields_outline {s : Shape} (tree : Tree s) :
    tree.outline.toFields.map Prod.fst = tree.toFields.map Prod.fst := by
  induction tree with
  | field name value rest _ ih => exact congrArg (name :: ·) ih
  | _ => rfl

theorem isCall_outline (node : Node) : Node.isCall node.outline = Node.isCall node := by
  cases node <;> rfl

theorem names_outline {node : Node} (h : Node.isCall node = false) :
    (Node.view node.outline).names = (Node.view node).names := by
  cases node with
  | call => cases h
  | ident pos name more =>
    exact congrArg (["type", "span", "value"] ++ ·) (toFields_outline more)
  | record kind fields =>
    show List.map _ (_ ++ _) = List.map _ (_ ++ _)
    rw [List.map_append, List.map_append, toFields_outline]
  | _ => rfl

/-- The outline forgets the marks of calls, but it keeps every other node that shows some. -/
theorem onlyCallsMarked_outline {s : Shape} {tree : Tree s} :
    tree.outline.OnlyCallsMarked ↔ tree.OnlyCallsMarked := by
  unfold OnlyCallsMarked
  rw [nodes_outline, List.forall_mem_map]
  refine forall₂_congr fun node _ => ?_
  rw [isCall_outline]
  -- The names that a call shows do change, but nothing is asked of a call.
  cases h : Node.isCall node with
  | true => exact iff_of_true (fun _ => rfl) (fun _ => rfl)
  | false => rw [names_outline h]

theorem onlyCallsMarked_congr {s : Shape} {tree other : Tree s}
    (h : tree.outline = other.outline) : tree.OnlyCallsMarked ↔ other.OnlyCallsMarked := by
  rw [← onlyCallsMarked_outline, h, onlyCallsMarked_outline]

/-! ## 2. Marks where they belong -/

variable {made : Nat} {s : Shape} {tree : Tree s}

theorem WellMarked.mono (h : tree.WellMarked made) {later : Nat} (hle : made ≤ later) :
    tree.WellMarked later := by
  refine ⟨?_, h.others⟩
  intro call hcall
  obtain ⟨hnodup, hmade⟩ := h.calls call hcall
  exact ⟨hnodup, fun mark hmark => Nat.lt_of_lt_of_le (hmade mark hmark) hle⟩

theorem WellMarked.dropSpan (h : tree.WellMarked made) (left : Option Nat) :
    (tree.dropSpan left).1.WellMarked made := by
  refine ⟨?_, (onlyCallsMarked_congr (outline_dropSpan tree left)).mpr h.others⟩
  intro call hcall
  have hmem : call.marks ∈ tree.calls.map Call.marks := by
    rw [← marks_dropSpan tree left]
    exact List.mem_map_of_mem hcall
  obtain ⟨before, hbefore, hmarks⟩ := List.mem_map.mp hmem
  rw [← hmarks]
  exact h.calls before hbefore

/-- A visit adds its mark only where it is not yet. -/
theorem WellMarked.amend (h : tree.WellMarked made) (settings : Settings) {mark : Mark}
    (hmark : mark < made) : (tree.amend (settings.verdict mark)).WellMarked made := by
  refine ⟨?_, (onlyCallsMarked_congr (outline_amend _ tree)).mpr h.others⟩
  rw [calls_amend, List.forall_mem_map]
  intro call hcall
  obtain ⟨hnodup, hmade⟩ := h.calls call hcall
  show (settings.verdict mark call).marks.Nodup ∧ ∀ other ∈ (settings.verdict mark call).marks, _
  constructor
  · by_cases hmem : mark ∈ call.marks
    · rw [Settings.verdict_of_mem hmem]
      exact hnodup
    · rw [Settings.verdict_of_not_mem hmem]
      refine List.nodup_append.mpr ⟨hnodup, List.nodup_singleton mark, ?_⟩
      rintro old hold _ hnew rfl
      exact hmem (List.mem_singleton.mp hnew ▸ hold)
  · intro other hother
    rcases mem_verdict.mp hother with hold | rfl
    · exact hmade other hold
    · exact hmark

end Tree

theorem Program.Unmarked.wellMarked {program : Program} (h : program.Unmarked) (made : Nat) :
    ∀ item ∈ program.body, item.WellMarked made := by
  intro item hitem
  refine ⟨?_, h.others item hitem⟩
  intro call hcall
  rw [h.calls item hitem call hcall]
  exact ⟨List.nodup_nil, List.forall_mem_nil _⟩

namespace Session

theorem wellMarked_next {session : Session} {step : Step} (hstep : step.Unmarked)
    (h : session.WellMarked) : (session.next step).WellMarked := by
  rcases next_cases session step with hnext | ⟨_, _, rfl, _, hnext⟩ | ⟨change, rfl, hnext⟩ |
    ⟨number, scope, pass, rfl, hpass, hnext⟩
  · rw [hnext]
    exact h
  · rw [hnext]
    intro item hitem
    exact (h item hitem).mono (by rw [List.length_append]; exact Nat.le_add_right _ _)
  · rw [hnext]
    intro item hitem
    rcases item_apply hitem with ⟨before, hbefore, rfl | ⟨left, rfl⟩⟩ | ⟨program, rfl, hnew⟩
    · exact h item hbefore
    · exact (h before hbefore).dropSpan left
    · exact hstep.wellMarked _ item hnew
  · rw [hnext]
    have hnumber : number < session.passes.length := (List.getElem?_eq_some_iff.mp hpass).1
    intro item hitem
    rw [List.length_set]
    obtain ⟨before, hbefore, rfl | rfl⟩ := Scope.mem_amend hitem
    · exact h item hbefore
    · exact (h before hbefore).amend pass.settings hnumber

theorem wellMarked_after {session : Session} {steps : List Step}
    (hsteps : ∀ step ∈ steps, step.Unmarked) (h : session.WellMarked) :
    (session.after steps).WellMarked := by
  induction steps generalizing session with
  | nil => exact h
  | cons step rest ih =>
    obtain ⟨hstep, hrest⟩ := List.forall_mem_cons.mp hsteps
    exact ih hrest (wellMarked_next hstep h)

end Session

/-! ## 3. What an edit does to the calls with a mark -/

theorem carriers_append (mark : Mark) (first second : List Node) :
    carriers mark (first ++ second) = carriers mark first + carriers mark second := by
  rw [carriers, List.flatMap_append, List.countP_append]
  rfl

theorem carriers_perm {first second : List Node} (h : first.Perm second) (mark : Mark) :
    carriers mark first = carriers mark second :=
  (h.flatMap_right Tree.calls).countP_eq _

theorem carriers_of_markFree {program : Program} (h : program.MarkFree) (mark : Mark) :
    carriers mark program.body = 0 := by
  rw [carriers, List.countP_eq_zero]
  intro call hcall
  obtain ⟨item, hitem, hmem⟩ := List.mem_flatMap.mp hcall
  rw [h item hitem call hmem, decide_eq_true_eq]
  exact List.not_mem_nil

theorem carriers_eraseIdx (mark : Mark) (body : List Node) (place : Nat) :
    carriers mark (body.eraseIdx place) + carriers mark body[place]?.toList =
      carriers mark body := by
  by_cases h : place < body.length
  · rw [List.getElem?_eq_getElem h, Nat.add_comm, ← carriers_append]
    exact carriers_perm (List.getElem_cons_eraseIdx_perm h) mark
  · rw [List.getElem?_eq_none (Nat.le_of_not_lt h), List.eraseIdx_of_length_le (Nat.le_of_not_lt h)]
    rfl

theorem carriers_dropSpans (mark : Mark) (body : List Node) (left : Option Nat) :
    carriers mark (dropSpans body left) = carriers mark body := by
  have hcalls : ∀ item : Node, (item.calls.countP fun call => mark ∈ call.marks) =
      (item.calls.map Call.marks).countP fun marks => mark ∈ marks := by
    intro item
    rw [List.countP_map]
    rfl
  induction body generalizing left with
  | nil => rfl
  | cons item rest ih =>
    rw [dropSpans, carriers_cons, carriers_cons, ih, hcalls, hcalls, Tree.marks_dropSpan]

/-- An edit adds the calls of what it duplicates and takes away those of what it deletes. -/
theorem carriers_apply {change : Change} (hchange : (Step.edit change).Unmarked) (mark : Mark)
    (body : List Node) :
    carriers mark (change.apply body) + carriers mark ((Step.edit change).removals body) =
      carriers mark body + carriers mark ((Step.edit change).copies body) := by
  cases change with
  | copy place => exact carriers_append mark body body[place]?.toList
  | remove place => exact carriers_eraseIdx mark body place
  | swap place other =>
    show carriers mark (Change.apply body (.swap place other)) = carriers mark body
    rw [Change.apply]
    split
    · next a b ha hb =>
      obtain ⟨hplace, rfl⟩ := List.getElem?_eq_some_iff.mp ha
      obtain ⟨hother, rfl⟩ := List.getElem?_eq_some_iff.mp hb
      exact carriers_perm (List.set_set_perm hplace hother) mark
    · rfl
  | append program =>
    show carriers mark (body ++ program.body) = carriers mark body
    rw [carriers_append, carriers_of_markFree hchange.calls, Nat.add_zero]
  | dropSpan call => exact carriers_dropSpans mark body (some call)

/-! ## 4. The books -/

namespace Session

theorem count_of_some {session : Session} {number : Nat} {pass : Pass}
    (h : session.passes[number]? = some pass) : session.count number = pass.processed := by
  rw [count, processed, List.getElem?_map, h]
  rfl

theorem count_of_none {session : Session} {number : Nat} (h : session.passes[number]? = none) :
    session.count number = 0 := by
  rw [count, processed, List.getElem?_map, h]
  rfl

/-- A new pass has counted nothing, like one that has not been made. -/
theorem count_create (session : Session) (source : SettingsSource) (number : Nat) :
    (session.next (.create source)).count number = session.count number := by
  cases hload : source.load with
  | error problem => rw [next_create_of_error hload]
  | ok settings =>
    rw [next_create_of_ok hload]
    cases hpass : session.passes[number]? with
    | some pass =>
      rw [count_of_some hpass]
      exact count_of_some ((List.getElem?_append_left (List.getElem?_eq_some_iff.mp hpass).1).trans
        hpass)
    | none =>
      rw [count_of_none hpass, count, processed, List.getElem?_map,
        List.getElem?_append_right (List.getElem?_eq_none_iff.mp hpass)]
      cases number - session.passes.length <;> rfl

/-- A visit counts the calls that get its mark, and none for any other pass. -/
theorem count_visit (session : Session) (number : Nat) (scope : Scope) (other : Nat) :
    (session.visit number scope).1.count other + carriers other session.program.body =
      session.count other + carriers other (session.visit number scope).1.program.body := by
  have hbalanced := Balanced.visit session number scope
  cases hother : session.passes[other]? with
  | some pass =>
    obtain ⟨new, hnew, _, hcount⟩ := hbalanced.pass hother
    rw [count_of_some hother, count_of_some hnew]
    exact hcount
  | none =>
    -- A pass that has not been made is not the one that visits, so no call gets its mark.
    have hnone : (session.visit number scope).1.passes[other]? = none := by
      rw [List.getElem?_eq_none_iff, hbalanced.length]
      exact List.getElem?_eq_none_iff.mp hother
    rw [count_of_none hother, count_of_none hnone]
    cases hpass : session.passes[number]? with
    | none => rw [visit_of_none hpass]
    | some pass =>
      have hne : other ≠ number := by
        rintro rfl
        cases hother.symm.trans hpass
      rw [visit_of_some hpass]
      show 0 + _ = 0 + carriers other (scope.amend _ _)
      rw [carriers_amend, if_neg hne, Nat.add_zero]

/-- A step changes what a pass has counted and what the program shows of it by the same amount,
apart from what it duplicates or deletes. -/
theorem count_next {step : Step} (hstep : step.Unmarked) (session : Session) (number : Nat) :
    (session.next step).count number + carriers number session.program.body +
        carriers number (step.copies session.program.body) =
      session.count number + carriers number (session.next step).program.body +
        carriers number (step.removals session.program.body) := by
  cases step with
  | create source =>
    have hprogram : (session.next (.create source)).program = session.program := by
      cases hload : source.load with
      | error problem => rw [next_create_of_error hload]
      | ok settings => rw [next_create_of_ok hload]
    rw [count_create, hprogram]
    rfl
  | visit pass scope => exact count_visit session pass scope number
  | edit change =>
    have happly := carriers_apply hstep number session.program.body
    rw [next_edit]
    show session.count number + _ + _ = _ + carriers number (change.apply _) + _
    omega

theorem count_after {steps : List Step} (hsteps : ∀ step ∈ steps, step.Unmarked)
    (session : Session) (number : Nat) :
    (session.after steps).count number + carriers number session.program.body +
        session.turnover Step.copies number steps =
      session.count number + carriers number (session.after steps).program.body +
        session.turnover Step.removals number steps := by
  induction steps generalizing session with
  | nil => rfl
  | cons step rest ih =>
    obtain ⟨hstep, hrest⟩ := List.forall_mem_cons.mp hsteps
    have hnext := count_next hstep session number
    have hafter := ih hrest (session.next step)
    show ((session.next step).after rest).count number + _ + (_ + _) =
      _ + carriers number ((session.next step).after rest).program.body + (_ + _)
    omega

/-- Marks and counts are conserved. Whatever steps a session takes from a program without marks, a
call has a mark at most once and only of a pass that has been made, and no other node has any. What
a pass has counted, and the calls with its mark that have been duplicated, make up the calls with
its mark in the program and those that have been deleted. -/
theorem count_conserved {program : Program} {steps : List Step} (hprogram : program.Unmarked)
    (hsteps : ∀ step ∈ steps, step.Unmarked) :
    let start : Session := { program }
    let now := start.after steps
    now.WellMarked ∧
    ∀ (number : Nat) (pass : Pass), now.passes[number]? = some pass →
      pass.processed + start.turnover Step.copies number steps =
        carriers number now.program.body + start.turnover Step.removals number steps := by
  intro start now
  refine ⟨wellMarked_after hsteps (hprogram.wellMarked _), ?_⟩
  intro number pass hpass
  have hafter := count_after hsteps start number
  have hstart : carriers number start.program.body = 0 := carriers_of_markFree hprogram.calls number
  have hnone : start.count number = 0 := count_of_none rfl
  have hnow : (start.after steps).count number = pass.processed := count_of_some hpass
  rw [hnow, hstart, hnone, Nat.add_zero, Nat.zero_add] at hafter
  exact hafter

/-- Two passes and then steps of all kinds, of which some duplicate and delete marked calls. -/
def bookedSteps : List Step :=
  [.create (.given (.renaming "a" "b")), .create (.given (.renaming "b" "c"))] ++ smallSteps

theorem small_count_conserved :
    small.program.Unmarked ∧ (∀ step ∈ bookedSteps, step.Unmarked) ∧
      let start : Session := { program := small.program }
      let now := start.after bookedSteps
      now.WellMarked ∧
      ∀ (number : Nat) (pass : Pass), now.passes[number]? = some pass →
        pass.processed + start.turnover Step.copies number bookedSteps =
          carriers number now.program.body + start.turnover Step.removals number bookedSteps := by
  have hprogram : small.program.Unmarked := ⟨by decide, by decide⟩
  have hsteps : ∀ step ∈ bookedSteps, step.Unmarked := by
    simp only [bookedSteps, smallSteps, List.cons_append, List.nil_append, List.forall_mem_cons,
      Step.Unmarked, hprogram, true_and]
    exact List.forall_mem_nil _
  exact ⟨hprogram, hsteps, count_conserved hprogram hsteps⟩

example :
    let start : Session := { program := small.program }
    let now := start.after bookedSteps
    (now.processed, [0, 1, 2].map fun mark => carriers mark now.program.body,
      [0, 1, 2].map fun mark => start.turnover Step.copies mark bookedSteps,
      [0, 1, 2].map fun mark => start.turnover Step.removals mark bookedSteps) =
        ([2, 5, 5], [2, 4, 4], [1, 0, 0], [1, 1, 1]) := by
  decide

end Session

end Retarget
