import Retarget.Tree.Basic

/-!
# Names mentioned in a tree

`mentions` answers whether a name occurs anywhere in a tree as an identifier. It goes through the
tree with a flag that tells whether the name has been seen, and turns back at every expression once
it has; parts of the tree that are no expressions are still gone through then. `identifiers` lists
every identifier, for comparison.
-/

namespace Retarget.Tree

/-- The kinds of records that are expressions. A record of the kind of a call stands behind an
optional chain and is none. -/
def expressionKinds : List String :=
  ["ThisExpression", "ArrayExpression", "ObjectExpression", "FunctionExpression",
    "UnaryExpression", "UpdateExpression", "BinaryExpression", "AssignmentExpression",
    "SuperPropExpression", "ConditionalExpression", "NewExpression", "SequenceExpression",
    "BooleanLiteral", "NullLiteral", "NumericLiteral", "BigIntLiteral", "RegExpLiteral", "JSXText",
    "TemplateLiteral", "TaggedTemplateExpression", "ArrowFunctionExpression", "ClassExpression",
    "YieldExpression", "MetaProperty", "AwaitExpression", "ParenthesisExpression",
    "JSXMemberExpression", "JSXNamespacedName", "JSXEmptyExpression", "JSXElement", "JSXFragment",
    "TsTypeAssertion", "TsConstAssertion", "TsNonNullExpression", "TsAsExpression",
    "TsInstantiation", "TsSatisfiesExpression", "PrivateName", "OptionalChainingExpression",
    "Invalid"]

/-- Whether a record of the given kind is an expression. -/
def isExpression (kind : Option String) : Bool :=
  kind.any (· ∈ expressionKinds)

/-- Goes through a tree in search of a name; the flag tells whether it has been seen before, and
the result whether it has been seen afterwards. -/
def search (name : String) : ∀ {s : Shape}, Tree s → Bool → Bool
  | _, atom _, seen => seen
  | _, span _, seen => seen
  | _, str _ _ _, seen => seen
  | _, ident _ other more, seen => more.search name (seen || other == name)
  | _, member _ object property, seen =>
    if seen then true else property.search name (object.search name false)
  | _, call _ callee arguments typeArguments _, seen =>
    if seen then true
    else typeArguments.search name (arguments.search name (callee.search name false))
  | _, arg _ value, seen => value.search name seen
  | _, list items, seen => items.search name seen
  | _, record kind fields, seen =>
    if seen && isExpression kind then true else fields.search name seen
  | _, nil, seen => seen
  | _, cons head tail, seen => tail.search name (head.search name seen)
  | _, noField, seen => seen
  | _, field _ value rest, seen => rest.search name (value.search name seen)

/-- Whether a name occurs in a tree. -/
def mentions {s : Shape} (name : String) (tree : Tree s) : Bool :=
  tree.search name false

/-- Every identifier of a tree, in the order in which they stand. -/
def identifiers : ∀ {s : Shape}, Tree s → List String
  | _, atom _ => []
  | _, span _ => []
  | _, str _ _ _ => []
  | _, ident _ name more => name :: more.identifiers
  | _, member _ object property => object.identifiers ++ property.identifiers
  | _, call _ callee arguments typeArguments _ =>
    callee.identifiers ++ arguments.identifiers ++ typeArguments.identifiers
  | _, arg _ value => value.identifiers
  | _, list items => items.identifiers
  | _, record _ fields => fields.identifiers
  | _, nil => []
  | _, cons head tail => head.identifiers ++ tail.identifiers
  | _, noField => []
  | _, field _ value rest => value.identifiers ++ rest.identifiers

end Retarget.Tree
