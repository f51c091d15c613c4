import Retarget.ModuleMap
import Retarget.Specifier

/-!
# Settings of a pass

What a pass needs to know: the module map, the text put before unmapped names, and the mode of the
build. `Settings.resolve` answers for a name which module it stands for, or that it stays as it is.

`Options` are settings as they are written down, where the mode may be left open; `Options.settle`
fills it in from the name of the build environment.
-/

namespace Retarget

/-- Whether the build runs under the test runner. The test runner resolves logical names itself, so
unmapped names stay as they are there. -/
inductive Mode where
  | test
  | normal
deriving DecidableEq, Repr

namespace Mode

instance : Inhabited Mode :=
  ⟨normal⟩

/-- The mode of a named build environment: only `test` means the test runner. -/
def ofEnv (env : String) : Mode :=
  if env = "test" then test else normal

/-- The word for a mode. -/
def name : Mode → String
  | test => "test"
  | normal => "normal"

/-- The mode that a word stands for. -/
def ofName? (word : String) : Option Mode :=
  if word = "test" then some test else if word = "normal" then some normal else none

end Mode

/-- The text put before unmapped names when none is configured. -/
def defaultPrefix : String :=
  "./"

/-- Everything a pass needs to know: the exact-match table, the text put before unmapped names if
one is configured, and the mode of the build. -/
structure Settings where
  map : ModuleMap := .empty
  lead : Option String := none
  mode : Mode := .normal

namespace Settings

instance : Inhabited Settings :=
  ⟨{}⟩

/-- The module that a name stands for: its entry in the map, or else, outside the test runner, the
normal form of the name behind the configured lead. `none` leaves the name as it is. -/
def resolve (settings : Settings) (name : String) : Option String :=
  match settings.map.get? name with
  | some target => some target
  | none =>
    match settings.mode with
    | .test => none
    | .normal => some (normalize (settings.lead.getD defaultPrefix ++ name))

end Settings

/-- Settings as they are written down: the mode may be left to the build environment. -/
structure Options where
  map : ModuleMap := .empty
  lead : Option String := none
  mode : Option Mode := none

namespace Options

instance : Inhabited Options :=
  ⟨{}⟩

instance : BEq Options :=
  ⟨fun a b => a.map == b.map && a.lead == b.lead && a.mode == b.mode⟩

/-- Settles the mode: an explicit one wins, then the one of the environment, then the normal mode. -/
def settle (options : Options) (env : Option String) : Settings where
  map := options.map
  lead := options.lead
  mode := (options.mode.or (env.map Mode.ofEnv)).getD default

end Options

end Retarget
