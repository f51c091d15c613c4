import Retarget.Proofs.Change
import Retarget.Proofs.Marked
import Retarget.Proofs.Step

/-!
# A completed pass is final

Once a pass has been taken over a whole program, every call carries its mark. The mark is on the
calls themselves, so copies have it too, and no edit takes it away: only items that come from
elsewhere can lack it. As long as none is appended, taking the pass over the program again does
nothing.

Results:
1. `marked_next`, `marked_after`: a marked program stays marked.
2. `apply_of_marked`: one more visit leaves a session with a marked program as it is.
3. `visit_final`: both, after a visit of a whole program and any further steps.
-/

namespace Retarget

/-! ## Definitions -/

/-- Whether a step appends the items of another program. -/
def Step.isAppend : Step → Bool
  | edit (.append _) => true
  | _ => false

/-- Every call of the program carries the mark. -/
def Program.Marked (mark : Mark) (program : Program) : Prop :=
  ∀ item ∈ program.body, item.Marked mark

/-! ## 1. Marked programs -/

theorem marked_apply {mark : Mark} {body : List Node} {change : Change}
    (hchange : (Step.edit change).isAppend = false) (h : ∀ item ∈ body, item.Marked mark) :
    ∀ item ∈ change.apply body, item.Marked mark := by
  intro item hitem call hcall
  rcases mem_apply hitem with ⟨before, hbefore, hmarks⟩ | ⟨program, rfl, _⟩
  · have hmem : call.marks ∈ before.calls.map Call.marks := by
      rw [← hmarks]
      exact List.mem_map_of_mem hcall
    obtain ⟨old, hold, heq⟩ := List.mem_map.mp hmem
    rw [← heq]
    exact h before hbefore old hold
  · exact nomatch hchange

namespace Session

/-- No step takes a mark away, except that it may bring in items without it. -/
theorem marked_next {mark : Mark} {session : Session} {step : Step}
    (hstep : step.isAppend = false) (h : session.program.Marked mark) :
    (session.next step).program.Marked mark := by
  rcases next_cases session step with hnext | ⟨_, _, rfl, _, hnext⟩ | ⟨change, rfl, hnext⟩ |
    ⟨number, scope, pass, rfl, _, hnext⟩
  · rw [hnext]
    exact h
  · rw [hnext]
    exact h
  · rw [hnext]
    exact marked_apply hstep h
  · rw [hnext]
    intro item hitem
    obtain ⟨before, hbefore, rfl | rfl⟩ := Scope.mem_amend hitem
    · exact h item hbefore
    · exact Tree.marked_amend (h before hbefore)

theorem marked_after {mark : Mark} {session : Session} {steps : List Step}
    (hsteps : ∀ step ∈ steps, step.isAppend = false) (h : session.program.Marked mark) :
    (session.after steps).program.Marked mark := by
  induction steps generalizing session with
  | nil => exact h
  | cons step rest ih =>
    have hrest : ∀ step ∈ rest, step.isAppend = false :=
      fun other hother => hsteps other (List.mem_cons_of_mem step hother)
    exact ih hrest (marked_next (hsteps step List.mem_cons_self) h)

/-- A pass marks the program that it is taken over. -/
theorem marked_visit {session : Session} {number : Nat} {scope : Scope}
    (hpass : number < session.passes.length) (hscope : scope = .program ∨ scope = .root) :
    (session.next (.visit number scope)).program.Marked number := by
  rw [next_visit, visit_of_some (List.getElem?_eq_getElem hpass)]
  intro item hitem
  have hmap : item ∈ session.program.body.map
      (Tree.amend (session.passes[number].settings.verdict number)) := by
    rcases hscope with rfl | rfl
    · exact hitem
    · exact hitem
  obtain ⟨before, _, rfl⟩ := List.mem_map.mp hmap
  exact Tree.marked_amend_self _ number before

/-! ## 2. One more visit -/

/-- Passes are never lost. -/
theorem length_next (session : Session) (step : Step) :
    session.passes.length ≤ (session.next step).passes.length := by
  rcases next_cases session step with hnext | ⟨_, _, _, _, hnext⟩ | ⟨_, _, hnext⟩ |
    ⟨_, _, _, _, _, hnext⟩
  · exact Nat.le_of_eq (congrArg (·.passes.length) hnext).symm
  · rw [hnext, List.length_append]
    exact Nat.le_add_right _ _
  · exact Nat.le_of_eq (congrArg (·.passes.length) hnext).symm
  · rw [hnext]
    exact Nat.le_of_eq List.length_set.symm

theorem length_after (session : Session) (steps : List Step) :
    session.passes.length ≤ (session.after steps).passes.length := by
  induction steps generalizing session with
  | nil => exact Nat.le_refl _
  | cons step rest ih => exact Nat.le_trans (length_next session step) (ih (session.next step))

theorem visit_of_marked {session : Session} {number : Nat} {pass : Pass}
    (hpass : session.passes[number]? = some pass) (h : session.program.Marked number)
    (scope : Scope) :
    session.visit number scope =
      (session, List.replicate (scope.calls session.program.body).length .alreadyProcessed ++
        scope.closing pass.processed) := by
  have hcalls : ∀ call ∈ scope.calls session.program.body, number ∈ call.marks := by
    intro call hcall
    obtain ⟨item, hitem, hmem⟩ := Scope.mem_calls hcall
    exact h item hitem call hmem
  have htally : pass.tally number (scope.calls session.program.body) = pass := by
    rw [Pass.tally, Tree.countP_of_marked hcalls]
    rfl
  have hbody : scope.amend (pass.settings.verdict number) session.program.body =
      session.program.body := by
    apply List.ext_getElem?
    intro place
    rw [Scope.getElem?_amend]
    split
    · cases hitem : session.program.body[place]? with
      | none => rfl
      | some item =>
        rw [Option.map_some, Tree.amend_of_marked (h item (List.mem_of_getElem? hitem))]
    · rfl
  have hpasses : session.passes.set number pass = session.passes := by
    obtain ⟨hlt, rfl⟩ := List.getElem?_eq_some_iff.mp hpass
    exact List.set_getElem_self hlt
  rw [visit_of_some hpass, htally, hbody, hpasses, Tree.report_of_marked hcalls]

/-- One more visit leaves a session with a marked program as it is, and answers so. -/
theorem apply_of_marked {session : Session} {number : Nat} {pass : Pass}
    (hpass : session.passes[number]? = some pass) (h : session.program.Marked number)
    (scope : Scope) :
    session.apply (.visit number scope) =
      .ok (session, .state session.program session.processed
        (List.replicate (scope.calls session.program.body).length .alreadyProcessed ++
          scope.closing pass.processed)) := by
  rw [apply, visit_of_marked hpass h]
  rfl

/-! ## 3. After a whole program -/

/-- A completed pass is final. When a pass has been taken over the whole program, then after any
further steps that append nothing every call carries its mark, and taking the pass over any scope
once more changes neither the program nor any count: the log says of each call in the scope that it
has been processed, and at the end of a whole program it repeats the count. -/
theorem visit_final {session : Session} {number : Nat} {scope : Scope} {steps : List Step}
    (hpass : number < session.passes.length) (hscope : scope = .program ∨ scope = .root)
    (hsteps : ∀ step ∈ steps, step.isAppend = false) :
    let done := (session.next (.visit number scope)).after steps
    done.program.Marked number ∧
      ∃ pass, done.passes[number]? = some pass ∧
        ∀ again : Scope,
          done.apply (.visit number again) =
            .ok (done, .state done.program done.processed
              (List.replicate (again.calls done.program.body).length .alreadyProcessed ++
                again.closing pass.processed)) := by
  intro done
  have hmarked : done.program.Marked number := marked_after hsteps (marked_visit hpass hscope)
  have hlength : number < done.passes.length :=
    calc
      number < session.passes.length := hpass
      _ ≤ (session.next (.visit number scope)).passes.length := length_next _ _
      _ ≤ done.passes.length := length_after _ _
  exact ⟨hmarked, done.passes[number], List.getElem?_eq_getElem hlength,
    apply_of_marked (List.getElem?_eq_getElem hlength) hmarked⟩

/-- Steps of all kinds that append nothing. -/
def laterSteps : List Step :=
  [.visit 1 .program, .edit (.copy 0), .create (.given (.renaming "c" "d")), .edit (.swap 0 2),
    .visit 2 (.item 1), .edit (.dropSpan 1), .edit (.remove 1)]

theorem small_visit_final :
    0 < Session.small.passes.length ∧ (∀ step ∈ laterSteps, step.isAppend = false) ∧
      let done := (Session.small.next (.visit 0 .root)).after laterSteps
      done.program.Marked 0 ∧
        ∃ pass, done.passes[0]? = some pass ∧
          ∀ again : Scope,
            done.apply (.visit 0 again) =
              .ok (done, .state done.program done.processed
                (List.replicate (again.calls done.program.body).length .alreadyProcessed ++
                  again.closing pass.processed)) := by
  have hpass : 0 < Session.small.passes.length := by decide
  have hsteps : ∀ step ∈ laterSteps, step.isAppend = false := by decide
  exact ⟨hpass, hsteps, visit_final hpass (.inr rfl) hsteps⟩

end Session

end Retarget
