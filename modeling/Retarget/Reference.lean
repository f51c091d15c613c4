import Retarget.Tree.Mention

/-!
# Calls that name a module

Two kinds of calls take a module name as their first argument: direct loads, `require("x")` and
`require.requireActual("x")`, and the mock helpers of the test framework, such as `jest.mock("x")`.
A mock helper is known by its property name and by the framework's name somewhere in its callee, so
that every link of `jest.dontMock("a").dontMock("b")` is one.
-/

namespace Retarget

/-- The kinds of calls that name a module. -/
inductive Reference where
  | directLoad
  | mockHelper
deriving DecidableEq, Repr

namespace Reference

/-- The function that loads a module. -/
def loader : String :=
  "require"

/-- The loader's property that loads a module past its mock. -/
def actualLoader : String :=
  "requireActual"

/-- The name of the test framework. -/
def framework : String :=
  "jest"

/-- The properties that are mock helpers. -/
def helpers : List String :=
  ["dontMock", "mock", "genMockFromModule"]

/-- How the log names a kind. -/
def name : Reference → String
  | directLoad => "DirectLoad"
  | mockHelper => "MockHelper"

/-- Whether a callee loads a module. -/
def isDirectLoad : Node → Bool
  | .ident _ name _ => name = loader
  | .member _ (.ident _ name _) (.ident _ property _) => name = loader && property = actualLoader
  | _ => false

/-- Whether a callee is a mock helper. -/
def isMockHelper : Node → Bool
  | callee@(.member _ _ (.ident _ property _)) => property ∈ helpers && callee.mentions framework
  | _ => false

/-- The kind of a call by its callee, if it names a module. -/
def ofCallee? (callee : Node) : Option Reference :=
  if isDirectLoad callee then some directLoad
  else if isMockHelper callee then some mockHelper
  else none

end Reference

end Retarget
