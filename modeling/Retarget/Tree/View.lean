import Retarget.Tree.Basic
import Retarget.Tree.Order

/-!
# Trees as objects and lists

A syntax tree comes and goes as nested objects and lists. `Node.ofObject` builds a node from the
fields of an object whose children are built already, and recognises by the field `type` the kinds
that have a constructor of their own; `Node.view` opens a node again by one level. Whoever reads or
writes trees only has to recurse.
-/

namespace Retarget

/-- One level of a tree. -/
inductive View where
  | atom (value : Atom)
  | list (items : List Node)
  | object (fields : List (String × Node))

namespace Node

/-! ## Reading -/

/-- The text that a node is. -/
def text? : Node → Option String
  | .atom (.text value) => some value
  | _ => none

/-- The text that a node is, or that it is no text but `null`. -/
def textOrNull? : Node → Option (Option String)
  | .atom .null => some none
  | .atom (.text value) => some (some value)
  | _ => none

/-- The natural number that a node is. -/
def nat? : Node → Option Nat
  | .atom (.number written) => written.toNat?
  | _ => none

/-- The span that a node is. -/
def span? : Node → Option Span
  | .span value => some value
  | _ => none

/-- The span that a node is, or that it is no span but `null`. -/
def spanOrNull? : Node → Option (Option Span)
  | .atom .null => some none
  | .span value => some (some value)
  | _ => none

/-- The list that a node is. -/
def list? : Node → Option (Tree .items)
  | .list items => some items
  | _ => none

/-- A list of trees as a node. -/
def ofList (nodes : List Node) : Node :=
  .list (.ofList nodes)

/-- The span that an object with two fields stands for. -/
def spanOf? (fields : List (String × Node)) : Option Node := do
  guard (fields.length = 2)
  let start ← (← Tree.lookup "start" fields).nat?
  let stop ← (← Tree.lookup "end" fields).nat?
  return .span ⟨start, stop⟩

/-- The argument that an object with two fields stands for. -/
def argOf? (fields : List (String × Node)) : Option Node := do
  guard (fields.length = 2)
  let spread ← (← Tree.lookup "spread" fields).spanOrNull?
  let value ← Tree.lookup "expression" fields
  return .arg spread value

/-- The string literal that an object stands for. -/
def strOf? (fields : List (String × Node)) : Option Node := do
  guard (fields.length = 3)
  let span ← (← Tree.lookup "span" fields).span?
  let value ← (← Tree.lookup "value" fields).text?
  let raw ← (← Tree.lookup "raw" fields).textOrNull?
  return .str span value raw

/-- The name that an object stands for; it may have further fields. -/
def identOf? (fields : List (String × Node)) : Option Node := do
  let span ← (← Tree.lookup "span" fields).span?
  let name ← (← Tree.lookup "value" fields).text?
  return .ident span name (.ofFields (fields.filter fun entry => entry.1 ∉ ["span", "value"]))

/-- The member access that an object stands for. -/
def memberOf? (fields : List (String × Node)) : Option Node := do
  guard (fields.length = 3)
  let span ← (← Tree.lookup "span" fields).span?
  let object ← Tree.lookup "object" fields
  let property ← Tree.lookup "property" fields
  return .member span object property

/-- The call that an object stands for, which no pass has processed yet. -/
def callOf? (fields : List (String × Node)) : Option Node := do
  guard (fields.length = 4)
  let span ← (← Tree.lookup "span" fields).span?
  let callee ← Tree.lookup "callee" fields
  let arguments ← (← Tree.lookup "arguments" fields).list?
  let typeArguments ← Tree.lookup "typeArguments" fields
  return .call span callee arguments typeArguments []

/-- A call behind an optional chain is a plain record. -/
def unlink : Node → Node
  | .call span callee arguments typeArguments _ =>
    .record (some "CallExpression") (.ofFields
      [("span", .span span), ("callee", callee), ("arguments", .list arguments),
        ("typeArguments", typeArguments)])
  | node => node

/-- The record of a kind, with its children in order. -/
def recordOf (kind : String) (fields : List (String × Node)) : Node :=
  let fields :=
    if kind = "OptionalChainingExpression" then
      fields.map fun entry => if entry.1 = "base" then (entry.1, entry.2.unlink) else entry
    else fields
  .record (some kind) (.ofFields (Tree.arrange (Tree.childOrder kind) fields))

/-- The node of a kind. -/
def ofKind (kind : String) (fields : List (String × Node)) : Node :=
  let special :=
    match kind with
    | "StringLiteral" => strOf? fields
    | "Identifier" => identOf? fields
    | "MemberExpression" => memberOf? fields
    | "CallExpression" => callOf? fields
    | _ => none
  special.getD (recordOf kind fields)

/-- The node of an object without a kind: a span, an argument, or the body of a function. -/
def ofUntyped (fields : List (String × Node)) : Node :=
  ((spanOf? fields).or (argOf? fields)).getD
    (.record none (.ofFields (Tree.arrange Tree.functionOrder fields)))

/-- The node that an object stands for. -/
def ofObject (fields : List (String × Node)) : Node :=
  match (Tree.lookup "type" fields).bind text? with
  | some kind => ofKind kind (fields.filter fun entry => entry.1 ≠ "type")
  | none => ofUntyped fields

/-! ## Writing -/

/-- A natural number as a node. -/
def ofNat (n : Nat) : Node :=
  .atom (.number (toString n))

/-- A text as a node. -/
def ofText (s : String) : Node :=
  .atom (.text s)

/-- A text that may be missing as a node. -/
def ofText? (s : Option String) : Node :=
  s.elim (.atom .null) ofText

/-- A span that may be missing as a node. -/
def ofSpan? (s : Option Span) : Node :=
  s.elim (.atom .null) .span

/-- The field with the marks of a call; a call without marks has no such field. -/
def marksField (marks : List Mark) : List (String × Node) :=
  if marks.isEmpty then [] else [("marks", ofList (marks.map ofNat))]

/-- The field with the kind of a node. -/
def kindField (kind : String) : String × Node :=
  ("type", ofText kind)

/-- Opens a node by one level. -/
def view : Node → View
  | .atom value => .atom value
  | .span value => .object [("start", ofNat value.start), ("end", ofNat value.stop)]
  | .str span value raw =>
    .object [kindField "StringLiteral", ("span", .span span), ("value", ofText value),
      ("raw", ofText? raw)]
  | .ident span name more =>
    .object (kindField "Identifier" :: ("span", .span span) :: ("value", ofText name) ::
      more.toFields)
  | .member span object property =>
    .object [kindField "MemberExpression", ("span", .span span), ("object", object),
      ("property", property)]
  | .call span callee arguments typeArguments marks =>
    .object ([kindField "CallExpression", ("span", .span span), ("callee", callee),
      ("arguments", .list arguments), ("typeArguments", typeArguments)] ++ marksField marks)
  | .arg spread value => .object [("spread", ofSpan? spread), ("expression", value)]
  | .list items => .list items.toList
  | .record kind fields => .object (kind.toList.map kindField ++ fields.toFields)

end Node

end Retarget
