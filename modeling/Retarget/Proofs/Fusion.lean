import Retarget.Proofs.Twice

/-!
# Two passes as one

A pass under the test runner only knows the names in its map. Taking another pass over a program
after it can be done in one go: the map of the second pass is extended by the names of the first
one, each with what the second pass makes of its target. The two passes and the single one leave the
same program, up to the marks.

Results:
1. `resolve_fuse`: fused settings resolve a name as the second settings resolve what the first have
   made of it.
2. `amend_amend`: two amendments are one, in which the later has the last word on a literal.
3. `target_fuse`: on a call without the marks the two verdicts point where the fused one does.
4. `run_run_fuse`: two fresh passes leave what one fresh pass with the fused settings leaves.
-/

namespace Retarget

/-! ## Definitions -/

/-- Replaces every target of a map. -/
def ModuleMap.mapTargets (f : String → String) (map : ModuleMap) : ModuleMap where
  entries := map.entries.map fun entry => (entry.1, f entry.2)
  nodup := by
    rw [List.map_map]
    exact map.nodup

namespace Settings

/-- The settings of a single pass that does the work of two: those of the second, with the names of
the first one's map led on to what the second pass makes of their targets. -/
def fuse (first second : Settings) : Settings :=
  { second with map := second.map.extend (first.map.mapTargets second.rename) }

end Settings

/-- The verdict of two amendments one after the other. The later one sees the call as the earlier one
has left it. -/
def Verdict.chain (first second : Call → Verdict) (call : Call) : Verdict where
  target := (second (call.amend first)).target.or (first call).target
  marks := (second (call.amend first)).marks

/-- No call of the program carries the mark. -/
def Program.Fresh (program : Program) (mark : Mark) : Prop :=
  ∀ call ∈ program.body.flatMap Tree.calls, mark ∉ call.marks

instance (program : Program) (mark : Mark) : Decidable (program.Fresh mark) :=
  inferInstanceAs (Decidable (∀ call ∈ program.body.flatMap Tree.calls, mark ∉ call.marks))

/-! ## 1. Fused settings -/

theorem Entries.find?_mapTargets (f : String → String) (name : String)
    (entries : List (String × String)) :
    find? name (entries.map fun entry => (entry.1, f entry.2)) = (find? name entries).map f := by
  induction entries with
  | nil => rfl
  | cons entry rest ih =>
    obtain ⟨key, target⟩ := entry
    rw [List.map_cons, find?, find?, ih]
    split <;> rfl

theorem ModuleMap.get?_mapTargets (f : String → String) (map : ModuleMap) (name : String) :
    (map.mapTargets f).get? name = (map.get? name).map f :=
  Entries.find?_mapTargets f name map.entries

namespace Settings

variable {first second : Settings}

theorem resolve_of_get? {settings : Settings} {name target : String}
    (h : settings.map.get? name = some target) : settings.resolve name = some target := by
  rw [resolve, h]

/-- Under the test runner only the names in the map are resolved. -/
theorem resolve_of_test {settings : Settings} (h : settings.mode = .test) (name : String) :
    settings.resolve name = settings.map.get? name := by
  rw [resolve, h]
  cases settings.map.get? name <;> rfl

theorem get?_fuse (first second : Settings) (name : String) :
    (first.fuse second).map.get? name =
      ((first.map.get? name).map second.rename).or (second.map.get? name) := by
  rw [fuse, ModuleMap.get?_extend, ModuleMap.get?_mapTargets]

/-- A name that the first map does not know is left to the second settings. -/
theorem resolve_fuse_of_none {name : String} (h : first.map.get? name = none) :
    (first.fuse second).resolve name = second.resolve name := by
  rw [resolve, resolve, get?_fuse, h, Option.map_none, Option.none_or]
  rfl

/-- Fused settings resolve what the first settings have made of a name; where the second settings
leave that alone, it stays. -/
theorem resolve_fuse (htest : first.mode = .test) (name : String) :
    (first.fuse second).resolve name =
      (second.resolve (first.rename name)).or (first.resolve name) := by
  rw [rename, resolve_of_test htest]
  cases h : first.map.get? name with
  | none => rw [resolve_fuse_of_none h, Option.getD_none, Option.or_none]
  | some target =>
    have hget : (first.fuse second).map.get? name = some (second.rename target) := by
      rw [get?_fuse, h, Option.map_some, Option.some_or]
    rw [resolve_of_get? hget, Option.getD_some, rename]
    cases second.resolve target <;> rfl

end Settings

/-! ## 2. Two amendments are one -/

namespace Tree

/-- Of two names that a literal is pointed at, the later stays. -/
theorem point_point (arguments : Tree .items) (first second : Option String) :
    (arguments.point first).point second = arguments.point (second.or first) := by
  cases second with
  | none => rw [point_none, Option.none_or]
  | some name =>
    rw [Option.some_or]
    fun_cases point first arguments with
    | case1 old pos value raw rest => rfl
    | case2 => rfl

/-- Amending an amended tree is amending the tree once. -/
theorem amend_amend (first second : Call → Verdict) {s : Shape} (tree : Tree s) :
    (tree.amend first).amend second = tree.amend (Verdict.chain first second) := by
  induction tree with
  | atom value => rfl
  | span value => rfl
  | str pos value raw => rfl
  | ident pos name more ih => rw [amend, amend, amend, ih]
  | member pos object property ihObject ihProperty =>
    rw [amend, amend, amend, ihObject, ihProperty]
  | call pos callee arguments typeArguments marks ihCallee ihArguments ihTypeArguments =>
    rw [amend, amend, amend, ← point_amend, point_point, ihCallee, ihArguments, ihTypeArguments]
    rfl
  | arg spread value ih => rw [amend, amend, amend, ih]
  | list items ih => rw [amend, amend, amend, ih]
  | record kind fields ih => rw [amend, amend, amend, ih]
  | nil => rfl
  | cons head tail ihHead ihTail => rw [amend, amend, amend, ihHead, ihTail]
  | noField => rfl
  | field name value rest ihValue ihRest => rw [amend, amend, amend, ihValue, ihRest]

end Tree

/-! ## 3. Fused verdicts -/

namespace Settings

variable {first second : Settings}

/-- The second pass points a call where the fused one does, or leaves it where the first pass has
pointed it. -/
theorem target_fuse (htest : first.mode = .test) {mark : Mark} {call : Call}
    (hmark : mark ∉ call.marks) :
    (first.fuse second).target call =
      (second.target (call.amend (first.verdict mark))).or (first.target call) := by
  have hkept := Reference.ofCallee?_amend (first.verdict mark) call
  cases hkind : Reference.ofCallee? call.callee with
  | none =>
    have hafter := hkept.trans hkind
    rw [target_of_no_kind hkind, target_of_no_kind hkind, target_of_no_kind hafter]
    rfl
  | some kind =>
    have hafter := hkept.trans hkind
    rw [target_of_kind hkind, target_of_kind hkind, target_of_kind hafter,
      literal?_amend_verdict hkind hmark]
    cases call.arguments.literal? with
    | none => rfl
    | some name => exact resolve_fuse htest name

end Settings

/-! ## 4. Two runs -/

namespace Scope

theorem amend_amend (first second : Call → Verdict) (scope : Scope) (body : List Node) :
    scope.amend second (scope.amend first body) = scope.amend (Verdict.chain first second) body := by
  apply List.ext_getElem?
  intro place
  rw [getElem?_amend, getElem?_amend, getElem?_amend]
  split
  · rw [Option.map_map]
    exact congrArg (Option.map · _) (funext (Tree.amend_amend first second))
  · rfl

theorem unmarked_amend_congr {judge other : Call → Verdict} {scope : Scope} {body : List Node}
    (h : ∀ call ∈ scope.calls body, (judge call).target = (other call).target) :
    (scope.amend judge body).map Tree.unmarked = (scope.amend other body).map Tree.unmarked := by
  apply List.ext_getElem?
  intro place
  rw [List.getElem?_map, List.getElem?_map, getElem?_amend, getElem?_amend]
  split
  · next hcovers =>
    cases hitem : body[place]? with
    | none => rfl
    | some item =>
      have hcalls : ∀ call ∈ item.calls, call.arguments.point (judge call).target =
          call.arguments.point (other call).target := by
        intro call hcall
        rw [h call (List.mem_flatMap.mpr ⟨item, mem_items hcovers hitem, hcall⟩)]
      exact congrArg some (Tree.unmarked_amend_congr hcalls)
  · rfl

end Scope

theorem program_run (settings : Settings) (mark : Mark) (program : Program) (scope : Scope) :
    (Pass.run { settings } mark program scope).program =
      { program with body := scope.amend (settings.verdict mark) program.body } := by
  rw [run_eq]

/-- No call in any scope of a program carries a fresh mark. -/
theorem Program.Fresh.not_mem {program : Program} {mark : Mark} (h : program.Fresh mark)
    {scope : Scope} {call : Call} (hcall : call ∈ scope.calls program.body) :
    mark ∉ call.marks := by
  obtain ⟨item, hitem, hcall⟩ := Scope.mem_calls hcall
  exact h call (List.mem_flatMap.mpr ⟨item, hitem, hcall⟩)

/-- Two passes, of which the first runs under the test runner and each is fresh on the program that
it is taken over, leave what a single fresh pass with the fused settings leaves, up to the marks:
the same tree with the same literals, source texts and spans. -/
theorem run_run_fuse {first second : Settings} (htest : first.mode = .test) (program : Program)
    (scope : Scope) {early late single : Mark} :
    let once := (Pass.run { settings := first } early program scope).program
    program.Fresh early → once.Fresh late → program.Fresh single →
    (Pass.run { settings := second } late once scope).program.unmarked =
      (Pass.run { settings := first.fuse second } single program scope).program.unmarked := by
  intro once hearly hlate hsingle
  have hrun : once = { program with body := scope.amend (first.verdict early) program.body } :=
    program_run first early program scope
  have honce : once.body = scope.amend (first.verdict early) program.body :=
    congrArg Program.body hrun
  have htarget : ∀ call ∈ scope.calls program.body,
      (Verdict.chain (first.verdict early) (second.verdict late) call).target =
        ((first.fuse second).verdict single call).target := by
    intro call hcall
    have hafter : late ∉ (call.amend (first.verdict early)).marks := by
      apply hlate.not_mem
      rw [honce, Scope.calls_amend]
      exact List.mem_map_of_mem hcall
    rw [Verdict.chain, Settings.verdict_of_not_mem (hearly.not_mem hcall),
      Settings.verdict_of_not_mem hafter, Settings.verdict_of_not_mem (hsingle.not_mem hcall)]
    exact (Settings.target_fuse htest (hearly.not_mem hcall)).symm
  rw [program_run, program_run, Program.unmarked, Program.unmarked, honce, Scope.amend_amend,
    Scope.unmarked_amend_congr htarget, hrun]

/-- One name goes through both maps, another one is left to the second pass. -/
theorem small_run_run_fuse :
    let first := Settings.renaming "a" "b"
    let second : Settings := { map := .ofList [("b", "c")], lead := some "lib/" }
    let program : Program := ⟨.module, ⟨1, 9⟩, [.loading "a", .loading "x"], none⟩
    let once := (Pass.run { settings := first } 0 program .program).program
    let twice := (Pass.run { settings := second } 1 once .program).program
    first.mode = .test ∧ program.Fresh 0 ∧ once.Fresh 1 ∧
      twice.unmarked.body = [.loading "c", .loading "lib/x"] ∧
      twice.unmarked =
        (Pass.run { settings := first.fuse second } 0 program .program).program.unmarked := by
  intro first second program once twice
  have hearly : program.Fresh 0 := by decide
  have hlate : once.Fresh 1 := by decide
  have hbody : twice.unmarked.body = [.loading "c", .loading "lib/x"] := by decide +kernel
  exact ⟨rfl, hearly, hlate, hbody, run_run_fuse rfl program .program hearly hlate hearly⟩

end Retarget
