import Retarget.Config.Load

/-!
# Building a module map in steps

A module map is put together from sources: texts and lists of pairs. An `Edit` says what happens
with the next source; an edit whose source cannot be loaded fails and changes nothing.
-/

namespace Retarget.ModuleMap

/-- Where entries come from. -/
inductive Source where
  | text (source : String)
  | pairs (list : List (String × String))

/-- The map of a source. -/
def Source.load : Source → Except LoadError ModuleMap
  | text source => ModuleMap.load source
  | pairs list => .ok (ofList list)

/-- One step in building a map. -/
inductive Edit where
  | clear
  | replace (source : Source)
  | extend (source : Source)
  | extendSelf

/-- The map after a step. -/
def Edit.apply (map : ModuleMap) : Edit → Except LoadError ModuleMap
  | clear => .ok empty
  | replace source => source.load
  | extend source => source.load.map map.extend
  | extendSelf => .ok (map.extend map)

/-- The map after a step that may fail; a failed step changes nothing. -/
def Edit.next (map : ModuleMap) (edit : Edit) : ModuleMap :=
  match edit.apply map with
  | .ok next => next
  | .error _ => map

/-- The map that steps build, one after the other, from the empty one. -/
def build (edits : List Edit) : ModuleMap :=
  edits.foldl Edit.next empty

end Retarget.ModuleMap
