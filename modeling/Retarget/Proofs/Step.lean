import Retarget.Session
import Retarget.Proofs.Run

/-!
# What a step of a session does

One equation for each kind of step. A new pass is added behind the others, or nothing happens when
its settings cannot be loaded; an edit changes the items of the program; a visit amends the items in
its scope and lets the count of its pass grow, and changes no other pass. `next_cases` gathers the
equations: what holds of a session and is kept in each of its cases holds after any step.
-/

namespace Retarget

namespace Session

/-- The settings of the passes, each at the place of its number. -/
def settings (session : Session) : List Settings :=
  session.passes.map Pass.settings

theorem next_edit (session : Session) (change : Change) :
    session.next (.edit change) = session.edit change :=
  rfl

theorem next_visit (session : Session) (number : Nat) (scope : Scope) :
    session.next (.visit number scope) = (session.visit number scope).1 :=
  rfl

theorem next_create_of_ok {session : Session} {source : SettingsSource} {settings : Settings}
    (h : source.load = .ok settings) :
    session.next (.create source) =
      { session with passes := session.passes ++ [⟨settings, 0⟩] } := by
  rw [next, apply, h]
  rfl

theorem next_create_of_error {session : Session} {source : SettingsSource} {problem : LoadError}
    (h : source.load = .error problem) : session.next (.create source) = session := by
  rw [next, apply, h]
  rfl

theorem visit_of_none {session : Session} {number : Nat} (h : session.passes[number]? = none)
    (scope : Scope) : session.visit number scope = (session, []) := by
  rw [visit, h]

/-- A visit by a pass of the session. -/
theorem visit_of_some {session : Session} {number : Nat} {pass : Pass}
    (h : session.passes[number]? = some pass) (scope : Scope) :
    session.visit number scope =
      ({ program :=
          { session.program with
            body := scope.amend (pass.settings.verdict number) session.program.body },
         passes :=
          session.passes.set number (pass.tally number (scope.calls session.program.body)) },
        (scope.calls session.program.body).flatMap (pass.settings.report number) ++
          scope.closing (pass.tally number (scope.calls session.program.body)).processed) := by
  have hrun := run_eq pass number session.program scope
  simp only [visit, h, hrun]

/-- Everything that a step can do: nothing, when the settings of a new pass cannot be loaded or
there is no such pass, or what is said of each kind of step above. -/
theorem next_cases (session : Session) (step : Step) :
    session.next step = session ∨
    (∃ source settings, step = .create source ∧ source.load = .ok settings ∧
      session.next step = { session with passes := session.passes ++ [⟨settings, 0⟩] }) ∨
    (∃ change, step = .edit change ∧ session.next step = session.edit change) ∨
    ∃ number scope pass, step = .visit number scope ∧ session.passes[number]? = some pass ∧
      session.next step =
        { program :=
            { session.program with
              body := scope.amend (pass.settings.verdict number) session.program.body },
          passes :=
            session.passes.set number (pass.tally number (scope.calls session.program.body)) } := by
  cases step with
  | create source =>
    cases h : source.load with
    | error problem => exact .inl (next_create_of_error h)
    | ok settings => exact .inr (.inl ⟨source, settings, rfl, h, next_create_of_ok h⟩)
  | edit change => exact .inr (.inr (.inl ⟨change, rfl, next_edit session change⟩))
  | visit number scope =>
    rw [next_visit]
    cases h : session.passes[number]? with
    | none =>
      left
      rw [visit_of_none h]
    | some pass =>
      refine .inr (.inr (.inr ⟨number, scope, pass, rfl, h, ?_⟩))
      rw [visit_of_some h]

theorem settings_create {session : Session} {source : SettingsSource} {settings : Settings}
    (h : source.load = .ok settings) :
    (session.next (.create source)).settings = session.settings ++ [settings] := by
  rw [next_create_of_ok h]
  exact List.map_append

/-- A visit changes the settings of no pass. -/
theorem settings_visit (session : Session) (number : Nat) (scope : Scope) :
    (session.visit number scope).1.settings = session.settings := by
  cases h : session.passes[number]? with
  | none => rw [visit_of_none h]
  | some pass =>
    rw [visit_of_some h]
    obtain ⟨hlt, rfl⟩ := List.getElem?_eq_some_iff.mp h
    show (session.passes.set number _).map Pass.settings = session.passes.map Pass.settings
    rw [List.map_set]
    show (session.passes.map Pass.settings).set number (session.passes[number].settings) = _
    rw [← List.getElem_map Pass.settings, List.set_getElem_self]
    rwa [List.length_map]

end Session

/-! ## A small session -/

/-- The item `require("x")` for a name `x`. -/
def Node.loading (name : String) : Node :=
  .call ⟨1, 5⟩ (.ident ⟨1, 3⟩ Reference.loader .noField)
    (.cons (.arg none (.str ⟨3, 5⟩ name none)) .nil) (.atom .null) []

/-- Settings that know a single name and leave every other as it is. -/
def Settings.renaming (old new : String) : Settings where
  map := .ofList [(old, new)]
  mode := .test

/-- Two items, and two passes of which one leads to the other. -/
def Session.small : Session where
  program := ⟨.module, ⟨1, 9⟩, [.loading "a", .loading "b"], none⟩
  passes := [⟨.renaming "a" "b", 0⟩, ⟨.renaming "b" "c", 0⟩]

end Retarget
