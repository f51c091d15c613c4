import Retarget.Proofs.Marked
import Retarget.Proofs.NormalForm
import Retarget.Proofs.Step

/-!
# Transforming a program twice

A transformation makes a pass of its own, with a mark that the program does not carry yet. So the
marks of an earlier transformation do not keep a later one from looking at every call again. What it
finds there is settled: each name is one that the settings give, and such a name stands for itself.

Results:
1. `freshMark_not_mem`: no call carries the mark of a new pass.
2. `unmarked_amend_congr`: up to the marks an amendment is told by what it makes of the literals;
   `unmarked_amend`: one that points no literal elsewhere changes marks only.
3. `settled_amend`: what a pass with stable settings leaves behind is settled.
4. `transform_transform`: a second transformation with the default options changes marks only.
-/

namespace Retarget

/-! ## Definitions -/

namespace Tree

/-- Takes all marks away. -/
def unmarked : ∀ {s : Shape}, Tree s → Tree s
  | _, atom value => atom value
  | _, span value => span value
  | _, str pos value raw => str pos value raw
  | _, ident pos name more => ident pos name more.unmarked
  | _, member pos object property => member pos object.unmarked property.unmarked
  | _, call pos callee arguments typeArguments _ =>
    call pos callee.unmarked arguments.unmarked typeArguments.unmarked []
  | _, arg spread value => arg spread value.unmarked
  | _, list items => list items.unmarked
  | _, record kind fields => record kind fields.unmarked
  | _, nil => nil
  | _, cons head tail => cons head.unmarked tail.unmarked
  | _, noField => noField
  | _, field name value rest => field name value.unmarked rest.unmarked

end Tree

/-- Takes all marks away. -/
def Program.unmarked (program : Program) : Program :=
  { program with body := program.body.map Tree.unmarked }

namespace Settings

/-- A name that the settings give stands for itself. -/
def Stable (settings : Settings) : Prop :=
  ∀ {name target : String}, settings.resolve name = some target →
    settings.resolve target = some target

/-- A call is settled when its first literal is where a pass would point it, and without source
text. -/
def Settled (settings : Settings) (call : Call) : Prop :=
  call.arguments.point (settings.target call) = call.arguments

end Settings

/-! ## 1. Fresh marks -/

theorem lt_beyond {mark : Mark} {marks : List Mark} (h : mark ∈ marks) :
    mark < Mark.beyond marks := by
  induction marks with
  | nil => cases h
  | cons first rest ih =>
    unfold Mark.beyond
    rcases List.mem_cons.mp h with rfl | h
    · split
      · exact Nat.lt_succ_self mark
      · next hlt => exact Nat.lt_of_not_le hlt
    · have hrest := ih h
      split
      · next hle => exact Nat.lt_succ_of_lt (Nat.lt_of_lt_of_le hrest hle)
      · exact hrest

theorem Tree.marks_eq {s : Shape} (tree : Tree s) : tree.marks = tree.calls.flatMap Call.marks := by
  induction tree with
  | atom value => rfl
  | span value => rfl
  | str pos value raw => rfl
  | ident pos name more ih => exact ih
  | member pos object property ihObject ihProperty =>
    rw [marks, calls, List.flatMap_append, ihObject, ihProperty]
  | call pos callee arguments typeArguments found ihCallee ihArguments ihTypeArguments =>
    rw [marks, calls, List.flatMap_append, List.flatMap_append, List.flatMap_append,
      List.flatMap_singleton, ihCallee, ihArguments, ihTypeArguments]
  | arg spread value ih => exact ih
  | list items ih => exact ih
  | record kind fields ih => exact ih
  | nil => rfl
  | cons head tail ihHead ihTail => rw [marks, calls, List.flatMap_append, ihHead, ihTail]
  | noField => rfl
  | field name value rest ihValue ihRest =>
    rw [marks, calls, List.flatMap_append, ihValue, ihRest]

/-- No call of a program carries the mark of a new pass. -/
theorem Program.freshMark_not_mem {program : Program} {call : Call}
    (h : call ∈ program.body.flatMap Tree.calls) : program.freshMark ∉ call.marks := by
  intro hmark
  obtain ⟨item, hitem, hcall⟩ := List.mem_flatMap.mp h
  refine Nat.lt_irrefl program.freshMark (lt_beyond (List.mem_flatMap.mpr ⟨item, hitem, ?_⟩))
  rw [Tree.marks_eq]
  exact List.mem_flatMap.mpr ⟨call, hcall, hmark⟩

/-! ## 2. Amendments that change marks only -/

namespace Tree

theorem literal?_unmarked (arguments : Tree .items) :
    arguments.unmarked.literal? = arguments.literal? := by
  cases arguments with
  | nil => rfl
  | cons head rest =>
    cases head with
    | arg spread value => cases spread <;> cases value <;> rfl
    | _ => rfl

theorem unmarked_point (target : Option String) (arguments : Tree .items) :
    (arguments.point target).unmarked = arguments.unmarked.point target :=
  (point_comm (f := id) (fun _ _ _ _ => rfl) literal?_unmarked target arguments).symm

/-- Up to the marks an amendment is told by what it makes of the literals. -/
theorem unmarked_amend_congr {judge other : Call → Verdict} {s : Shape} {tree : Tree s}
    (h : ∀ call ∈ tree.calls,
      call.arguments.point (judge call).target = call.arguments.point (other call).target) :
    (tree.amend judge).unmarked = (tree.amend other).unmarked := by
  induction tree with
  | atom value => rfl
  | span value => rfl
  | str pos value raw => rfl
  | ident pos name more ih => rw [amend, amend, unmarked, unmarked, ih h]
  | member pos object property ihObject ihProperty =>
    have hparts := List.forall_mem_append.mp h
    rw [amend, amend, unmarked, unmarked, ihObject hparts.1, ihProperty hparts.2]
  | call pos callee arguments typeArguments marks ihCallee ihArguments ihTypeArguments =>
    have hparts := List.forall_mem_append.mp h
    have hchildren := List.forall_mem_append.mp hparts.1
    have hlists := List.forall_mem_append.mp hchildren.2
    have hpoint := hparts.2 _ List.mem_cons_self
    rw [amend, amend, unmarked, unmarked, unmarked_point, ihArguments hlists.1, ← unmarked_point,
      point_amend, hpoint, ← point_amend, ihCallee hchildren.1, ihTypeArguments hlists.2]
  | arg spread value ih => rw [amend, amend, unmarked, unmarked, ih h]
  | list items ih => rw [amend, amend, unmarked, unmarked, ih h]
  | record kind fields ih => rw [amend, amend, unmarked, unmarked, ih h]
  | nil => rfl
  | cons head tail ihHead ihTail =>
    have hparts := List.forall_mem_append.mp h
    rw [amend, amend, unmarked, unmarked, ihHead hparts.1, ihTail hparts.2]
  | noField => rfl
  | field name value rest ihValue ihRest =>
    have hparts := List.forall_mem_append.mp h
    rw [amend, amend, unmarked, unmarked, ihValue hparts.1, ihRest hparts.2]

/-- An amendment that points no literal elsewhere changes marks only. -/
theorem unmarked_amend {judge : Call → Verdict} {s : Shape} {tree : Tree s}
    (h : ∀ call ∈ tree.calls, call.arguments.point (judge call).target = call.arguments) :
    (tree.amend judge).unmarked = tree.unmarked := by
  have hself : tree.amend (fun call => ⟨none, call.marks⟩) = tree :=
    amend_eq_self fun _ _ => rfl
  calc (tree.amend judge).unmarked
      _ = (tree.amend fun call => ⟨none, call.marks⟩).unmarked :=
        unmarked_amend_congr fun call hcall => by rw [h call hcall, point_none]
      _ = tree.unmarked := by rw [hself]

end Tree

/-! ## 3. Settled calls -/

namespace Settings

variable {settings : Settings} {mark : Mark} {call : Call}

/-- Pointing the first literal at the target of its call settles the call. -/
theorem settled_point (hstable : settings.Stable) (call : Call) :
    settings.Settled { call with arguments := call.arguments.point (settings.target call) } := by
  cases htarget : settings.target call with
  | none =>
    show (call.arguments.point none).point _ = _
    rw [Tree.point_none, htarget, Tree.point_none]
  | some new =>
    obtain ⟨hkind, old, hold, hnew⟩ := target_eq_some_iff.mp htarget
    obtain ⟨hliteral, hpoint⟩ := Tree.point_of_literal? hold new
    have hagain : settings.target { call with arguments := call.arguments.point (some new) } =
        some new :=
      target_eq_some_iff.mpr ⟨hkind, new, hliteral, hstable hnew⟩
    unfold Settled
    rw [hagain, hpoint]

/-- A pass with stable settings settles every call that does not carry its mark. -/
theorem settled_amend (hstable : settings.Stable) (h : mark ∉ call.marks) :
    settings.Settled (call.amend (settings.verdict mark)) := by
  -- The call with its children amended, and its own literal not yet pointed anywhere.
  let middle : Call := ⟨call.span, call.callee.amend (settings.verdict mark),
    call.arguments.amend (settings.verdict mark), call.typeArguments.amend (settings.verdict mark),
    (settings.verdict mark call).marks⟩
  have htarget : settings.target middle = (settings.verdict mark call).target := by
    rw [verdict_of_not_mem h]
    exact target_congr (Tree.outline_amend _ call.callee) (Tree.literal?_amend _ call.arguments)
  have hsettled := settled_point hstable middle
  rw [htarget] at hsettled
  exact hsettled

/-- A pass that rewrites a settled call writes the name that stands there. -/
theorem eq_of_retargeted_mem_report (hsettled : settings.Settled call) {kind : Reference}
    {old new : String} (h : .retargeted kind old new ∈ settings.report mark call) : old = new := by
  unfold report at h
  split at h
  · cases List.mem_singleton.mp h
  · split at h
    · cases h
    · split at h
      · next hold hnew =>
        cases List.mem_singleton.mp h
        have hliteral := (Tree.point_of_literal? hold new).1
        unfold Settled at hsettled
        rw [← hnew, hsettled, hold] at hliteral
        rw [hnew] at hliteral
        exact Option.some.inj hliteral
      · cases List.mem_singleton.mp h

theorem alreadyProcessed_not_mem_report (h : mark ∉ call.marks) :
    .alreadyProcessed ∉ settings.report mark call := by
  unfold report
  rw [if_neg h]
  split
  · exact List.not_mem_nil
  · split
    · simp
    · simp

end Settings

/-! ## 4. Transformations with the default options -/

theorem stable_default : (default : Settings).Stable := by
  intro name target h
  cases h
  exact congrArg some (normalize_normalize_default name)

/-- A transformation with the default options amends every item, with a fresh mark. -/
theorem transform_eq (program : Program) :
    program.transform "" none =
      ({ program with
          body := program.body.map (Tree.amend ((default : Settings).verdict program.freshMark)) },
        (program.body.flatMap Tree.calls).flatMap
            ((default : Settings).report program.freshMark) ++
          [.finished ((program.body.flatMap Tree.calls).countP
            fun call => program.freshMark ∉ call.marks)]) := by
  have hload : Settings.load "" none = .ok default := rfl
  rw [Program.transform, hload]
  show ((Pass.run { settings := default } program.freshMark program .program).program,
    (Pass.run { settings := default } program.freshMark program .program).events) = _
  rw [run_eq]
  simp only [Pass.tally, Nat.zero_add]
  rfl

/-- A transformation with the default options leaves settled calls. -/
theorem settled_transform {program : Program} {call : Call}
    (h : call ∈ (program.transform "" none).1.body.flatMap Tree.calls) :
    (default : Settings).Settled call := by
  rw [transform_eq] at h
  obtain ⟨item, hitem, hcall⟩ := List.mem_flatMap.mp h
  obtain ⟨before, hbefore, rfl⟩ := List.mem_map.mp hitem
  rw [Tree.calls_amend] at hcall
  obtain ⟨old, hold, rfl⟩ := List.mem_map.mp hcall
  exact Settings.settled_amend stable_default
    (Program.freshMark_not_mem (List.mem_flatMap.mpr ⟨before, hbefore, hold⟩))

/-- On settled calls a transformation with the default options changes marks only. -/
theorem unmarked_transform {program : Program}
    (h : ∀ call ∈ program.body.flatMap Tree.calls, (default : Settings).Settled call) :
    (program.transform "" none).1.unmarked = program.unmarked := by
  rw [transform_eq, Program.unmarked, Program.unmarked]
  have hbody : (program.body.map (Tree.amend ((default : Settings).verdict program.freshMark))).map
      Tree.unmarked = program.body.map Tree.unmarked := by
    rw [List.map_map]
    apply List.map_congr_left
    intro item hitem
    apply Tree.unmarked_amend
    intro call hcall
    have hmem := List.mem_flatMap.mpr ⟨item, hitem, hcall⟩
    rw [Settings.verdict_of_not_mem (Program.freshMark_not_mem hmem)]
    exact h call hmem
  rw [hbody]

/-- Transforming a program twice with the default options, each time by a pass of its own, gives what
transforming it once gives, up to the marks. The second pass evaluates every call again, and where
it rewrites a name it writes the name that stands there. -/
theorem transform_transform (program : Program) :
    let once := program.transform "" none
    let twice := once.1.transform "" none
    twice.1.unmarked = once.1.unmarked ∧
      (∀ kind old new, .retargeted kind old new ∈ twice.2 → old = new) ∧
      .alreadyProcessed ∉ twice.2 := by
  intro once twice
  have hlog : ∀ event ∈ twice.2, (∃ processed, event = .finished processed) ∨
      ∃ call ∈ once.1.body.flatMap Tree.calls,
        event ∈ (default : Settings).report once.1.freshMark call := by
    intro event hevent
    rw [show twice = _ from transform_eq once.1] at hevent
    rcases List.mem_append.mp hevent with hevent | hevent
    · exact .inr (List.mem_flatMap.mp hevent)
    · exact .inl ⟨_, List.mem_singleton.mp hevent⟩
  refine ⟨unmarked_transform fun call => settled_transform, ?_, ?_⟩
  · intro kind old new hevent
    rcases hlog _ hevent with ⟨processed, hfinished⟩ | ⟨call, hcall, hreport⟩
    · cases hfinished
    · exact Settings.eq_of_retargeted_mem_report (settled_transform hcall) hreport
  · intro hevent
    rcases hlog _ hevent with ⟨processed, hfinished⟩ | ⟨call, hcall, hreport⟩
    · cases hfinished
    · exact Settings.alreadyProcessed_not_mem_report (Program.freshMark_not_mem hcall) hreport

/-- The second pass does rewrite the name, to the one that stands there. -/
theorem loading_transform_transform :
    let once := Program.transform "" none ⟨.module, ⟨1, 5⟩, [.loading "a//b/../c/"], none⟩
    let twice := once.1.transform "" none
    .retargeted .directLoad "./a/c/" "./a/c/" ∈ twice.2 ∧
      twice.1.unmarked = once.1.unmarked ∧
      (∀ kind old new, .retargeted kind old new ∈ twice.2 → old = new) ∧
      .alreadyProcessed ∉ twice.2 := by
  intro once twice
  have hlog : .retargeted .directLoad "./a/c/" "./a/c/" ∈ twice.2 := by decide +kernel
  exact ⟨hlog, transform_transform _⟩

end Retarget
