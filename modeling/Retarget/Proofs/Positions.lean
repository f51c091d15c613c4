import Retarget.Proofs.Step

/-!
# Positions do not matter

A pass never asks where in the source something stands. Moving every position of a tree by some
function, which may well give one position to many nodes, changes neither what a pass does with the
tree nor what it logs: the moved tree is visited as the tree is, and the result is the moved result.
An argument is a spread if it has spread dots anywhere, so that moving them keeps it one.

Results:
1. `outline_respan`, `literal?_respan`: what a pass looks at is the same in a moved tree.
2. `calls_respan`, `amend_respan`: the calls of a moved tree are the moved calls, and amending them
   is amending the tree and moving the result.
3. `run_respan`: a pass over a moved program does what it does over the program.
-/

namespace Retarget

/-! ## Definitions -/

/-- Moves every position of a tree. A missing spread stays missing. -/
def Tree.respan (f : Span → Span) : ∀ {s : Shape}, Tree s → Tree s
  | _, atom value => atom value
  | _, span value => span (f value)
  | _, str pos value raw => str (f pos) value raw
  | _, ident pos name more => ident (f pos) name (more.respan f)
  | _, member pos object property => member (f pos) (object.respan f) (property.respan f)
  | _, call pos callee arguments typeArguments marks =>
    call (f pos) (callee.respan f) (arguments.respan f) (typeArguments.respan f) marks
  | _, arg spread value => arg (spread.map f) (value.respan f)
  | _, list items => list (items.respan f)
  | _, record kind fields => record kind (fields.respan f)
  | _, nil => nil
  | _, cons head tail => cons (head.respan f) (tail.respan f)
  | _, noField => noField
  | _, field name value rest => field name (value.respan f) (rest.respan f)

/-- Moves every position of a program. -/
def Program.respan (f : Span → Span) (program : Program) : Program :=
  { program with span := f program.span, body := program.body.map (Tree.respan f) }

/-- Moves every position of a call. -/
def Call.respan (f : Span → Span) (call : Call) : Call where
  span := f call.span
  callee := call.callee.respan f
  arguments := call.arguments.respan f
  typeArguments := call.typeArguments.respan f
  marks := call.marks

variable {f : Span → Span}

/-! ## 1. What a pass looks at -/

namespace Tree

theorem outline_respan {s : Shape} (tree : Tree s) : (tree.respan f).outline = tree.outline := by
  induction tree with
  | atom value => rfl
  | span value => rfl
  | str pos value raw => rfl
  | ident pos name more ih => rw [respan, outline, outline, ih]
  | member pos object property ihObject ihProperty =>
    rw [respan, outline, outline, ihObject, ihProperty]
  | call pos callee arguments typeArguments marks ihCallee ihArguments ihTypeArguments =>
    rw [respan, outline, outline, ihCallee, ihArguments, ihTypeArguments]
  | arg spread value ih =>
    rw [respan, outline, outline, ih]
    cases spread <;> rfl
  | list items ih => rw [respan, outline, outline, ih]
  | record kind fields ih => rw [respan, outline, outline, ih]
  | nil => rfl
  | cons head tail ihHead ihTail => rw [respan, outline, outline, ihHead, ihTail]
  | noField => rfl
  | field name value rest ihValue ihRest => rw [respan, outline, outline, ihValue, ihRest]

theorem literal?_respan (arguments : Tree .items) :
    (arguments.respan f).literal? = arguments.literal? := by
  cases arguments with
  | nil => rfl
  | cons head rest =>
    cases head with
    | arg spread value => cases spread <;> cases value <;> rfl
    | _ => rfl

end Tree

namespace Settings

variable (settings : Settings) (mark : Mark) (call : Call)

theorem verdict_respan : settings.verdict mark (call.respan f) = settings.verdict mark call :=
  verdict_congr (Tree.outline_respan call.callee) (Tree.literal?_respan call.arguments) rfl

theorem report_respan : settings.report mark (call.respan f) = settings.report mark call :=
  report_congr (Tree.outline_respan call.callee) (Tree.literal?_respan call.arguments) rfl

end Settings

/-! ## 2. Moved trees -/

namespace Tree

theorem calls_respan {s : Shape} (tree : Tree s) :
    (tree.respan f).calls = tree.calls.map (Call.respan f) := by
  induction tree with
  | atom value => rfl
  | span value => rfl
  | str pos value raw => rfl
  | ident pos name more ih => exact ih
  | member pos object property ihObject ihProperty =>
    rw [respan, calls, calls, List.map_append, ihObject, ihProperty]
  | call pos callee arguments typeArguments marks ihCallee ihArguments ihTypeArguments =>
    rw [respan, calls, calls, ihCallee, ihArguments, ihTypeArguments]
    simp only [List.map_append, List.map_cons, List.map_nil]
    rfl
  | arg spread value ih => exact ih
  | list items ih => exact ih
  | record kind fields ih => exact ih
  | nil => rfl
  | cons head tail ihHead ihTail => rw [respan, calls, calls, List.map_append, ihHead, ihTail]
  | noField => rfl
  | field name value rest ihValue ihRest =>
    rw [respan, calls, calls, List.map_append, ihValue, ihRest]

/-- A literal that is pointed at a name keeps its position, wherever that is. -/
theorem point_respan (target : Option String) (arguments : Tree .items) :
    (arguments.respan f).point target = (arguments.point target).respan f :=
  point_comm (fun _ _ _ _ => rfl) literal?_respan target arguments

/-- An amendment that judges calls without regard to positions can be done before moving a tree or
after it. -/
theorem amend_respan {judge : Call → Verdict} (h : ∀ call : Call, judge (call.respan f) = judge call)
    {s : Shape} (tree : Tree s) : (tree.respan f).amend judge = (tree.amend judge).respan f := by
  induction tree with
  | atom value => rfl
  | span value => rfl
  | str pos value raw => rfl
  | ident pos name more ih => rw [respan, amend, amend, respan, ih]
  | member pos object property ihObject ihProperty =>
    rw [respan, amend, amend, respan, ihObject, ihProperty]
  | call pos callee arguments typeArguments marks ihCallee ihArguments ihTypeArguments =>
    have hjudge := h ⟨pos, callee, arguments, typeArguments, marks⟩
    rw [Call.respan] at hjudge
    rw [respan, amend, amend, respan, hjudge, ihCallee, ihArguments, ihTypeArguments, point_respan]
  | arg spread value ih => rw [respan, amend, amend, respan, ih]
  | list items ih => rw [respan, amend, amend, respan, ih]
  | record kind fields ih => rw [respan, amend, amend, respan, ih]
  | nil => rfl
  | cons head tail ihHead ihTail => rw [respan, amend, amend, respan, ihHead, ihTail]
  | noField => rfl
  | field name value rest ihValue ihRest => rw [respan, amend, amend, respan, ihValue, ihRest]

end Tree

namespace Scope

theorem items_respan (scope : Scope) (body : List Node) :
    scope.items (body.map (Tree.respan f)) = (scope.items body).map (Tree.respan f) := by
  cases scope with
  | program => rfl
  | root => rfl
  | item index =>
    rw [items, items, List.getElem?_map]
    cases body[index]? <;> rfl

theorem calls_respan (scope : Scope) (body : List Node) :
    scope.calls (body.map (Tree.respan f)) = (scope.calls body).map (Call.respan f) := by
  rw [calls, calls, items_respan, List.flatMap_map, List.map_flatMap]
  exact congrArg (List.flatMap · _) (funext Tree.calls_respan)

theorem amend_respan {judge : Call → Verdict} (h : ∀ call : Call, judge (call.respan f) = judge call)
    (scope : Scope) (body : List Node) :
    scope.amend judge (body.map (Tree.respan f)) =
      (scope.amend judge body).map (Tree.respan f) := by
  apply List.ext_getElem?
  intro place
  rw [List.getElem?_map, getElem?_amend, getElem?_amend, List.getElem?_map]
  split
  · rw [Option.map_map, Option.map_map]
    exact congrArg (Option.map · _) (funext (Tree.amend_respan h))
  · rfl

end Scope

/-! ## 3. Passes over moved programs -/

section Calls

variable (settings : Settings) (mark : Mark) (calls : List Call)

theorem flatMap_report_respan :
    (calls.map (Call.respan f)).flatMap (settings.report mark) =
      calls.flatMap (settings.report mark) := by
  rw [List.flatMap_map]
  exact congrArg (List.flatMap · _) (funext (settings.report_respan mark))

theorem countP_respan :
    (calls.map (Call.respan f)).countP (fun call => mark ∉ call.marks) =
      calls.countP fun call => mark ∉ call.marks :=
  List.countP_map

end Calls

theorem Tree.visit_respan (settings : Settings) (mark : Mark) {s : Shape} (tree : Tree s) :
    (tree.respan f).visit settings mark = (tree.visit settings mark).map (Tree.respan f) := by
  rw [visit_eq, visit_eq, calls_respan, flatMap_report_respan, countP_respan,
    amend_respan (settings.verdict_respan mark)]
  rfl

theorem run_program_respan (pass : Pass) (mark : Mark) (program : Program) (scope : Scope) :
    pass.run mark (program.respan f) scope =
      { pass.run mark program scope with
        program := (pass.run mark program scope).program.respan f } := by
  rw [run_eq, run_eq, Program.respan, Program.respan, Scope.calls_respan,
    Scope.amend_respan (pass.settings.verdict_respan mark), flatMap_report_respan, Pass.tally,
    countP_respan]
  rfl

/-- A pass commutes with moving all positions, on a tree of any shape and on a program in any scope:
it leaves the moved result with the same marks, the same count and the same log. So two programs
that differ in their positions only, by calls that stand nowhere or that share a place, say, are
dealt with alike. -/
theorem run_respan (f : Span → Span) (pass : Pass) (mark : Mark) :
    (∀ (s : Shape) (tree : Tree s),
      (tree.respan f).visit pass.settings mark =
        (tree.visit pass.settings mark).map (Tree.respan f)) ∧
    (∀ (program : Program) (scope : Scope),
      pass.run mark (program.respan f) scope =
        { pass.run mark program scope with
          program := (pass.run mark program scope).program.respan f }) ∧
    ∀ (program other : Program) (g : Span → Span) (scope : Scope),
      program.respan f = other.respan g →
        (pass.run mark program scope).pass = (pass.run mark other scope).pass ∧
        (pass.run mark program scope).events = (pass.run mark other scope).events ∧
        (pass.run mark program scope).program.respan f =
          (pass.run mark other scope).program.respan g := by
  refine ⟨fun s tree => tree.visit_respan pass.settings mark, run_program_respan pass mark, ?_⟩
  intro program other g scope h
  have hrun := congrArg (pass.run mark · scope) h
  simp only [run_program_respan, Outcome.mk.injEq] at hrun
  obtain ⟨hpass, hprogram, hevents⟩ := hrun
  exact ⟨hpass, hevents, hprogram⟩

/-- Two loads, one of which has lost its position while the other has moved to where the first one
stood, are rewritten and counted like two loads that stand apart. -/
theorem small_run_respan :
    let apart : Program := ⟨.module, ⟨1, 9⟩, [.loading "a", (Node.loading "b").respan fun _ => ⟨5, 9⟩],
      none⟩
    let astray : Program := ⟨.module, ⟨1, 9⟩, [(Node.loading "a").respan fun _ => .dummy,
      .loading "b"], none⟩
    let pass : Pass := { settings := .renaming "a" "b" }
    apart.respan (fun _ => .dummy) = astray.respan (fun _ => .dummy) ∧
      (pass.run 0 astray .root).pass.processed = 2 ∧
      (pass.run 0 apart .root).pass = (pass.run 0 astray .root).pass ∧
      (pass.run 0 apart .root).events = (pass.run 0 astray .root).events ∧
      (pass.run 0 apart .root).program.respan (fun _ => .dummy) =
        (pass.run 0 astray .root).program.respan fun _ => .dummy := by
  intro apart astray pass
  have h : apart.respan (fun _ => .dummy) = astray.respan (fun _ => .dummy) := rfl
  have hcount : (pass.run 0 astray .root).pass.processed = 2 := by decide
  exact ⟨h, hcount,
    (run_respan (fun _ => .dummy) pass 0).2.2 apart astray (fun _ => .dummy) .root h⟩

end Retarget
