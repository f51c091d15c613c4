import Retarget.Config.OptionsText

/-!
# Loading options and module maps

The loaders take a whole text and either give the value or a `LoadError` with its full wording.
-/

namespace Retarget

/-- Which kind of text could not be loaded, with the wording of the fault in it. -/
inductive LoadError where
  | badOptions (detail : String)
  | badModuleMap (detail : String)
deriving DecidableEq, Repr

/-- The wording of an error. -/
def LoadError.message : LoadError → String
  | badOptions detail => "invalid plugin config: " ++ detail
  | badModuleMap detail => "invalid module map: " ++ detail

/-- The module map that a text holds. -/
def ModuleMap.load (source : String) : Except LoadError ModuleMap :=
  (Config.moduleMapText source.toList).mapError fun fault =>
    .badModuleMap (fault.message source.toList)

/-- The options that a text holds. -/
def Options.load (source : String) : Except LoadError Options :=
  (Config.optionsText source.toList).mapError fun fault =>
    .badOptions (fault.message source.toList)

/-- The settings of the options that a text holds, in a build environment. -/
def Settings.load (source : String) (env : Option String) : Except LoadError Settings :=
  (Options.load source).map fun options => options.settle env

end Retarget
