import Retarget.Config.Load
import Retarget.Pass.Visit
import Retarget.Program.Basic

/-!
# Running a pass

A pass keeps count of the calls that it has processed. It is taken over a whole program, which ends
with a log entry of its own, or over the items of the program or a single one of them, which does
not. `Program.transform` is the complete job: it loads options, makes a fresh pass of them, with a
mark that the program does not carry yet, and takes it over the program.
-/

namespace Retarget

/-- A pass: its settings, and the number of calls that it has processed so far. -/
structure Pass where
  settings : Settings
  processed : Nat := 0

/-- How much of a program a visit takes in.

* `program`: the whole program, with a log entry at its end.
* `root`: the same items without that entry.
* `item`: a single top-level item. -/
inductive Scope where
  | program
  | root
  | item (index : Nat)
deriving DecidableEq, Repr

/-- Takes a pass over items one after the other. -/
def visitItems (settings : Settings) (mark : Mark) : List Node → Visited (List Node)
  | [] => .still []
  | item :: rest => .zip List.cons (item.visit settings mark) (visitItems settings mark rest)

namespace Program

/-- Takes a pass over the items of a program. -/
def visitRoot (settings : Settings) (mark : Mark) (program : Program) : Visited Program :=
  (visitItems settings mark program.body).map fun body => { program with body }

/-- Takes a pass over one item of a program; there may be no such item. -/
def visitItem (settings : Settings) (mark : Mark) (index : Nat) (program : Program) :
    Visited Program :=
  match program.body[index]? with
  | none => .still program
  | some item =>
    (item.visit settings mark).map fun item =>
      { program with body := program.body.set index item }

end Program

/-- What a run leaves behind: the pass and the program afterwards, and the log entries in order. -/
structure Outcome where
  pass : Pass
  program : Program
  events : List Event

namespace Pass

/-- Adds the calls of a visit to the count of the pass. -/
def conclude (pass : Pass) (visited : Visited Program) : Outcome where
  pass := { pass with processed := pass.processed + visited.count }
  program := visited.result
  events := visited.events

/-- Takes a pass with the given mark over a program, or over a part of it. -/
def run (pass : Pass) (mark : Mark) (program : Program) : Scope → Outcome
  | .root => pass.conclude (program.visitRoot pass.settings mark)
  | .item index => pass.conclude (program.visitItem pass.settings mark index)
  | .program =>
    let outcome := pass.conclude (program.visitRoot pass.settings mark)
    { outcome with events := outcome.events ++ [.finished outcome.pass.processed] }

end Pass

/-- The first mark beyond given ones. -/
def Mark.beyond : List Mark → Mark
  | [] => 0
  | mark :: rest => if Mark.beyond rest ≤ mark then mark + 1 else Mark.beyond rest

/-- A mark that no call of a program carries: the first one, as long as no call carries any. -/
def Program.freshMark (program : Program) : Mark :=
  .beyond (program.body.flatMap Tree.marks)

/-- Takes a fresh pass over a whole program, with the settings of an options text in a build
environment. A text that cannot be loaded leaves the program as it is. -/
def Program.transform (options : String) (env : Option String) (program : Program) :
    Program × List Event :=
  match Settings.load options env with
  | .error _ => (program, [])
  | .ok settings =>
    let outcome := Pass.run { settings } program.freshMark program .program
    (outcome.program, outcome.events)

end Retarget
