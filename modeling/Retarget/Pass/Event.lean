import Retarget.Reference

/-!
# The log of a pass

A pass reports what it did with each call that names a module, each call that it left alone because
it had processed it before, and the end of a whole program.
-/

namespace Retarget

/-- How much a log entry matters. -/
inductive Level where
  | debug
  | trace
deriving DecidableEq, Repr

/-- The word for a level. -/
def Level.name : Level → String
  | debug => "debug"
  | trace => "trace"

/-- A log entry.

* `retargeted`: the module name of a call was replaced.
* `unchanged`: a call names a module but was left as it is.
* `alreadyProcessed`: the pass has processed the call before.
* `finished`: a whole program is done, and the pass has processed so many calls up to now. -/
inductive Event where
  | retargeted (kind : Reference) (old new : String)
  | unchanged (kind : Reference)
  | alreadyProcessed
  | finished (processed : Nat)
deriving DecidableEq, Repr

namespace Event

/-- How much an entry matters. -/
def level : Event → Level
  | retargeted _ _ _ => .debug
  | unchanged _ => .trace
  | alreadyProcessed => .trace
  | finished _ => .debug

/-- The wording of an entry. -/
def message : Event → String
  | retargeted _ _ _ => "rewrote module reference"
  | unchanged _ => "module reference left unchanged"
  | alreadyProcessed => "call already processed"
  | finished _ => "module rewrite pass finished"

end Event

end Retarget
