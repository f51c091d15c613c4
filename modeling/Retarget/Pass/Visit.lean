import Retarget.Pass.Event
import Retarget.Settings

/-!
# Visiting a tree

`Tree.visit` takes a pass over a tree. Children come first, so inner calls are settled before the
call around them. A call that carries the pass's mark is left alone; any other call gets the mark,
and if it names a module, its first argument is pointed at the module that the settings give.

The visit gives the new tree together with the log and with the number of calls that it processed.
-/

namespace Retarget

/-- What a visit leaves behind: the tree afterwards, the log entries in order, and the number of
calls that were processed. -/
structure Visited (α : Type) where
  result : α
  events : List Event
  count : Nat

namespace Visited

/-- A visit that finds nothing to do. -/
def still {α : Type} (result : α) : Visited α :=
  ⟨result, [], 0⟩

/-- A visit seen as one of a larger tree. -/
def map {α β : Type} (f : α → β) (visited : Visited α) : Visited β :=
  ⟨f visited.result, visited.events, visited.count⟩

/-- Two visits one after the other. -/
def zip {α β γ : Type} (f : α → β → γ) (first : Visited α) (second : Visited β) : Visited γ :=
  ⟨f first.result second.result, first.events ++ second.events, first.count + second.count⟩

/-- Goes on with what a visit left behind. -/
def bind {α β : Type} (visited : Visited α) (next : α → Visited β) : Visited β :=
  let after := next visited.result
  ⟨after.result, visited.events ++ after.events, visited.count + after.count⟩

end Visited

/-- A module name that was replaced, with the arguments afterwards. -/
structure Replacement where
  old : String
  new : String
  arguments : Tree .items

namespace Tree

/-- Points a string literal in the first place at the module that it stands for. The literal keeps
its span and loses its source text. A spread argument is left alone. -/
def retarget? (settings : Settings) : Tree .items → Option Replacement
  | cons (arg none (str pos old _)) rest =>
    (settings.resolve old).map fun new => ⟨old, new, cons (arg none (str pos new none)) rest⟩
  | _ => none

/-- Settles a call whose children are settled. -/
def settle (settings : Settings) (mark : Mark) (pos : Span) (callee : Node)
    (arguments : Tree .items) (typeArguments : Node) (marks : List Mark) : Visited Node :=
  if mark ∈ marks then
    ⟨call pos callee arguments typeArguments marks, [.alreadyProcessed], 0⟩
  else
    match Reference.ofCallee? callee with
    | none => ⟨call pos callee arguments typeArguments (marks ++ [mark]), [], 1⟩
    | some kind =>
      match retarget? settings arguments with
      | none =>
        ⟨call pos callee arguments typeArguments (marks ++ [mark]), [.unchanged kind], 1⟩
      | some found =>
        ⟨call pos callee found.arguments typeArguments (marks ++ [mark]),
          [.retargeted kind found.old found.new], 1⟩

/-- Takes a pass over a tree. -/
def visit (settings : Settings) (mark : Mark) : ∀ {s : Shape}, Tree s → Visited (Tree s)
  | _, atom value => .still (atom value)
  | _, span value => .still (span value)
  | _, str pos value raw => .still (str pos value raw)
  | _, ident pos name more => (more.visit settings mark).map (ident pos name)
  | _, member pos object property =>
    .zip (member pos) (object.visit settings mark) (property.visit settings mark)
  | _, call pos callee arguments typeArguments marks =>
    (Visited.zip Prod.mk (callee.visit settings mark)
      (.zip Prod.mk (arguments.visit settings mark) (typeArguments.visit settings mark))).bind
      fun (callee, arguments, typeArguments) =>
        settle settings mark pos callee arguments typeArguments marks
  | _, arg spread value => (value.visit settings mark).map (arg spread)
  | _, list items => (items.visit settings mark).map list
  | _, record kind fields => (fields.visit settings mark).map (record kind)
  | _, nil => .still nil
  | _, cons head tail => .zip cons (head.visit settings mark) (tail.visit settings mark)
  | _, noField => .still noField
  | _, field name value rest =>
    .zip (field name) (value.visit settings mark) (rest.visit settings mark)

end Tree

end Retarget
