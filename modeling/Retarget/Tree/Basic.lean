/-!
# Syntax trees

A program's syntax tree, as far as its meaning matters here: string literals, identifiers, member
accesses, calls with their arguments, and for everything else plain records and lists. Trees, lists
of trees and fields of records are one family, indexed by `Shape`, so that a function on trees is one
recursion and a proof about it one induction.

A call carries the marks of the passes that have processed it. No other node can carry marks: in
particular the call behind an optional chain (`f?.(x)`) is a plain record.
-/

namespace Retarget

/-- A stretch of source text, from `start` up to `stop`. -/
structure Span where
  start : Nat
  stop : Nat
deriving DecidableEq, Repr

/-- The span of a node that stands nowhere in the source. -/
def Span.dummy : Span :=
  ⟨0, 0⟩

/-- Plain data in a tree. A number is kept as it is written, so that nothing of it is lost. -/
inductive Atom where
  | null
  | bool (value : Bool)
  | number (written : String)
  | text (value : String)
deriving DecidableEq, Repr

/-- The number of a pass, left on the calls that it has processed. -/
abbrev Mark := Nat

/-- The three parts of the family of trees. -/
inductive Shape where
  | node
  | items
  | fields
deriving DecidableEq, Repr

/-- Syntax trees, lists of them, and fields of records.

* `str`: a string literal, with its source text if it has one.
* `ident`: a name, as an expression, a property, a binding, a label, a type or a tag.
* `call`: a call, with the marks of the passes that have processed it.
* `arg`: an argument, with the span of its spread dots if it has them.
* `record`: any other node, with the name of its kind if it has one.
* `nil`, `cons`: a list of trees. `noField`, `field`: the fields of a record. -/
inductive Tree : Shape → Type where
  | atom (value : Atom) : Tree .node
  | span (value : Span) : Tree .node
  | str (span : Span) (value : String) (raw : Option String) : Tree .node
  | ident (span : Span) (name : String) (more : Tree .fields) : Tree .node
  | member (span : Span) (object property : Tree .node) : Tree .node
  | call (span : Span) (callee : Tree .node) (arguments : Tree .items) (typeArguments : Tree .node)
      (marks : List Mark) : Tree .node
  | arg (spread : Option Span) (value : Tree .node) : Tree .node
  | list (items : Tree .items) : Tree .node
  | record (kind : Option String) (fields : Tree .fields) : Tree .node
  | nil : Tree .items
  | cons (head : Tree .node) (tail : Tree .items) : Tree .items
  | noField : Tree .fields
  | field (name : String) (value : Tree .node) (rest : Tree .fields) : Tree .fields
deriving DecidableEq, Repr

/-- A single syntax tree. -/
abbrev Node := Tree .node

instance : Inhabited Node :=
  ⟨.atom .null⟩

namespace Tree

/-- The trees of a list; nothing else has any. -/
def toList : ∀ {s : Shape}, Tree s → List Node
  | _, cons head tail => head :: tail.toList
  | _, _ => []

/-- A list of trees. -/
def ofList : List Node → Tree .items
  | [] => nil
  | head :: tail => cons head (ofList tail)

/-- The fields of a record; nothing else has any. -/
def toFields : ∀ {s : Shape}, Tree s → List (String × Node)
  | _, field name value rest => (name, value) :: rest.toFields
  | _, _ => []

/-- Fields for a record. -/
def ofFields : List (String × Node) → Tree .fields
  | [] => noField
  | (name, value) :: rest => field name value (ofFields rest)

/-- The marks of all calls in a tree. -/
def marks : ∀ {s : Shape}, Tree s → List Mark
  | _, atom _ => []
  | _, span _ => []
  | _, str _ _ _ => []
  | _, ident _ _ more => more.marks
  | _, member _ object property => object.marks ++ property.marks
  | _, call _ callee arguments typeArguments found =>
    callee.marks ++ (arguments.marks ++ typeArguments.marks) ++ found
  | _, arg _ value => value.marks
  | _, list items => items.marks
  | _, record _ fields => fields.marks
  | _, nil => []
  | _, cons head tail => head.marks ++ tail.marks
  | _, noField => []
  | _, field _ value rest => value.marks ++ rest.marks

@[simp]
theorem toList_ofList (nodes : List Node) : (ofList nodes).toList = nodes := by
  induction nodes with
  | nil => rfl
  | cons head tail ih => simp [ofList, toList, ih]

@[simp]
theorem toFields_ofFields (fields : List (String × Node)) : (ofFields fields).toFields = fields := by
  induction fields with
  | nil => rfl
  | cons head tail ih => simp [ofFields, toFields, ih]

end Tree

end Retarget
