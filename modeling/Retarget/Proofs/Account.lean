import Retarget.Proofs.Run

/-!
# The log as an account

The log of a visit can be told from the tree before the visit and the tree after it. The calls of the
two trees correspond, in the order in which they are settled, and each call is accounted for by what
it was before and by the literal that it has afterwards.

Results:
1. `account_amend`: what a pass reports on a call is the account of it.
2. `events_visit`, `events_run`: the log is the account of all calls in order, and at the end of a
   whole program it gives the count of the pass.
-/

namespace Retarget

/-! ## Definitions -/

namespace Settings

/-- The log entries for a call that a pass has come by, told from the call before and afterwards. A
call that carried the mark has been processed already; any other one is passed over in silence unless
it names a module, and then the log has either the old and the new name in its first literal or, if
there is no literal or its name is not resolved, that it was left unchanged. -/
def account (settings : Settings) (mark : Mark) (before after : Call) : List Event :=
  if mark ∈ before.marks then [.alreadyProcessed]
  else
    match Reference.ofCallee? before.callee with
    | none => []
    | some kind =>
      match before.arguments.literal?, after.arguments.literal? with
      | some old, some new =>
        if (settings.resolve old).isSome then [.retargeted kind old new] else [.unchanged kind]
      | _, _ => [.unchanged kind]

/-- The entries for calls one after the other. -/
def accounts (settings : Settings) (mark : Mark) (before after : List Call) : List Event :=
  (List.zipWith (settings.account mark) before after).flatten

/-! ## 1. A single call -/

theorem account_of_mem {settings : Settings} {mark : Mark} {before : Call}
    (h : mark ∈ before.marks) (after : Call) :
    settings.account mark before after = [.alreadyProcessed] :=
  if_pos h

/-- What a pass reports on a call is the account of the call before the visit and after it. -/
theorem account_amend (settings : Settings) (mark : Mark) (call : Call) :
    settings.account mark call (call.amend (settings.verdict mark)) =
      settings.report mark call := by
  by_cases hmark : mark ∈ call.marks
  · rw [account_of_mem hmark, report_of_mem hmark]
  rw [account, report, if_neg hmark, if_neg hmark]
  cases hkind : Reference.ofCallee? call.callee with
  | none => rfl
  | some kind =>
    rw [literal?_amend_verdict hkind hmark, target_of_kind hkind]
    cases call.arguments.literal? with
    | none => rfl
    | some old =>
      rw [Option.map_some, Option.bind_some, rename]
      cases hresolve : settings.resolve old with
      | none => simp [hresolve]
      | some new => simp [hresolve]

theorem accounts_amend (settings : Settings) (mark : Mark) (calls : List Call) :
    settings.accounts mark calls (calls.map (Call.amend (settings.verdict mark))) =
      calls.flatMap (settings.report mark) := by
  rw [accounts, List.zipWith_map_right, List.zipWith_self, List.flatMap_def]
  simp only [account_amend]

end Settings

/-! ## 2. Whole visits -/

/-- Each call is accounted for, in the order in which the calls are settled. -/
theorem events_visit (settings : Settings) (mark : Mark) {s : Shape} (tree : Tree s) :
    (tree.visit settings mark).events =
      settings.accounts mark tree.calls (tree.visit settings mark).result.calls := by
  rw [Tree.visit_eq, Tree.calls_amend, Settings.accounts_amend]

/-- The log is an exact account of a visit. The calls after a visit of a tree are as many as before,
and the log has the entries for each of them in the order in which they are settled, inner ones first.
The same goes for the calls in any scope of a program that a pass is taken over; at the end of a whole
program, and only there, the log also gives the number of calls that the pass has processed by
then. -/
theorem events_run (pass : Pass) (mark : Mark) :
    (∀ (s : Shape) (tree : Tree s),
      let visited := tree.visit pass.settings mark
      visited.result.calls.length = tree.calls.length ∧
        visited.events = pass.settings.accounts mark tree.calls visited.result.calls) ∧
    ∀ (program : Program) (scope : Scope),
      let outcome := pass.run mark program scope
      (scope.calls outcome.program.body).length = (scope.calls program.body).length ∧
        outcome.events =
          pass.settings.accounts mark (scope.calls program.body)
              (scope.calls outcome.program.body) ++
            scope.closing outcome.pass.processed := by
  refine ⟨?_, ?_⟩
  · intro s tree visited
    refine ⟨?_, events_visit pass.settings mark tree⟩
    rw [show visited = _ from Tree.visit_eq pass.settings mark tree, Tree.calls_amend,
      List.length_map]
  · intro program scope outcome
    rw [show outcome = _ from run_eq pass mark program scope, Scope.calls_amend,
      Settings.accounts_amend, List.length_map]
    exact ⟨rfl, rfl⟩

end Retarget
