import Retarget.Tree.View

/-!
# Programs

A program is a module or a script with its top-level items. It comes and goes as a node like any
other: `Program.ofNode?` opens the root, and `Program.toNode` closes it again.
-/

namespace Retarget

/-- What a program's root is. -/
inductive ProgramKind where
  | module
  | script
deriving DecidableEq, Repr

namespace ProgramKind

/-- The name of a kind of root. -/
def name : ProgramKind → String
  | module => "Module"
  | script => "Script"

/-- The kind of root that a name stands for. -/
def ofName? (word : String) : Option ProgramKind :=
  if word = "Module" then some module else if word = "Script" then some script else none

end ProgramKind

/-- A program: the kind of its root, its extent in the source, its top-level items, and the
interpreter named in its first line if there is one. -/
structure Program where
  kind : ProgramKind
  span : Span
  body : List Node
  interpreter : Option String
deriving DecidableEq, Repr

namespace Program

/-- The program that a node stands for. -/
def ofNode? : Node → Option Program
  | .record (some kind) fields => do
    let kind ← ProgramKind.ofName? kind
    let span ← (← Tree.lookup "span" fields.toFields).span?
    let body ← (← Tree.lookup "body" fields.toFields).list?
    let interpreter ← (← Tree.lookup "interpreter" fields.toFields).textOrNull?
    return { kind, span, body := body.toList, interpreter }
  | _ => none

/-- A program as a node. -/
def toNode (program : Program) : Node :=
  .record (some program.kind.name) (.ofFields
    [("span", .span program.span), ("body", Node.ofList program.body),
      ("interpreter", Node.ofText? program.interpreter)])

theorem ofNode?_toNode (program : Program) : ofNode? program.toNode = some program := by
  obtain ⟨kind, span, body, interpreter⟩ := program
  cases kind <;> cases interpreter <;>
    simp [ofNode?, toNode, Tree.lookup, ProgramKind.name, ProgramKind.ofName?, Node.span?,
      Node.list?, Node.ofList, Node.textOrNull?, Node.ofText?, Node.ofText]

end Program

end Retarget
