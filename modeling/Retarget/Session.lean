import Retarget.Pass.Run
import Retarget.Program.Change

/-!
# Sessions

A session holds one program and any number of passes, which are numbered from zero and leave their
number as their mark. Passes are taken over the program in any order, and between their visits the
program can be changed.

`Session.apply` does one step; a step that fails leaves the session as it was, and `Session.answers`
goes on with the next one.
-/

namespace Retarget

/-- Where the settings of a new pass come from. -/
inductive SettingsSource where
  | text (options : String) (env : Option String)
  | given (settings : Settings)

/-- The settings of a source. -/
def SettingsSource.load : SettingsSource → Except LoadError Settings
  | text options env => Settings.load options env
  | given settings => .ok settings

/-- One step of a session: makes a new pass, takes a pass over the program, or edits the program. -/
inductive Step where
  | create (source : SettingsSource)
  | visit (pass : Nat) (scope : Scope)
  | edit (change : Change)

/-- A program with the passes that go over it, each at the place of its number. -/
structure Session where
  program : Program
  passes : List Pass := []

/-- What a step answers: the number of a new pass; or the program, the count of each pass, and what
the step logged. -/
inductive Answer where
  | created (number : Nat)
  | state (program : Program) (processed : List Nat) (events : List Event)

namespace Session

/-- The number of calls that each pass has processed. -/
def processed (session : Session) : List Nat :=
  session.passes.map Pass.processed

/-- Takes a pass over the program; there may be no such pass. -/
def visit (session : Session) (number : Nat) (scope : Scope) : Session × List Event :=
  match session.passes[number]? with
  | none => (session, [])
  | some pass =>
    let outcome := pass.run number session.program scope
    ({ program := outcome.program, passes := session.passes.set number outcome.pass },
      outcome.events)

/-- Edits the program. -/
def edit (session : Session) (change : Change) : Session :=
  { session with program.body := change.apply session.program.body }

/-- Does one step, and gives the session afterwards with the answer. -/
def apply (session : Session) : Step → Except LoadError (Session × Answer)
  | .create source => do
    let settings ← source.load
    return ({ session with passes := session.passes ++ [{ settings }] },
      .created session.passes.length)
  | .visit number scope =>
    let (next, events) := session.visit number scope
    return (next, .state next.program next.processed events)
  | .edit change =>
    let next := session.edit change
    return (next, .state next.program next.processed [])

/-- The session after a step; a step that fails changes nothing. -/
def next (session : Session) (step : Step) : Session :=
  match session.apply step with
  | .ok (next, _) => next
  | .error _ => session

/-- The session after steps one after the other. -/
def after (session : Session) (steps : List Step) : Session :=
  steps.foldl next session

/-- The answers of steps one after the other. -/
def answers (session : Session) : List Step → List (Except LoadError Answer)
  | [] => []
  | step :: rest =>
    match session.apply step with
    | .ok (next, answer) => .ok answer :: next.answers rest
    | .error problem => .error problem :: session.answers rest

end Session

end Retarget
