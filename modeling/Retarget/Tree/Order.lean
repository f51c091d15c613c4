/-!
# The order of children

The children of a node are visited in the order in which its kind lists them. `childOrder` gives
that order for the kinds with several children; fields that it does not list hold at most plain
data, or are the only child, and come last.
-/

namespace Retarget.Tree

/-- The children of functions: they stand in nodes of several kinds. -/
def functionOrder : List String :=
  ["params", "decorators", "body", "typeParameters", "returnType"]

/-- The children of classes. -/
def classOrder : List String :=
  ["identifier", "decorators", "body", "superClass", "typeParams", "superTypeParams", "implements"]

/-- The fields of a node that are visited one after the other, by the kind of the node. -/
def childOrder : String → List String
  | "ArrayPattern" => ["elements", "typeAnnotation"]
  | "ArrowFunctionExpression" => ["params", "body", "typeParameters", "returnType"]
  | "AssignmentExpression" => ["left", "right"]
  | "AssignmentPattern" => ["left", "right"]
  | "AssignmentPatternProperty" => ["key", "value"]
  | "AssignmentProperty" => ["key", "value"]
  | "AutoAccessor" => ["key", "value", "typeAnnotation", "decorators"]
  | "BinaryExpression" => ["left", "right"]
  | "CallExpression" => ["callee", "arguments", "typeArguments"]
  | "CatchClause" => ["param", "body"]
  | "ClassDeclaration" => classOrder
  | "ClassExpression" => classOrder
  | "ClassMethod" => ["key", "function"]
  | "ClassProperty" => ["key", "value", "typeAnnotation", "decorators"]
  | "ConditionalExpression" => ["test", "consequent", "alternate"]
  | "Constructor" => ["key", "params", "body"]
  | "DoWhileStatement" => ["test", "body"]
  | "ExportAllDeclaration" => ["source", "with"]
  | "ExportNamedDeclaration" => ["specifiers", "source", "with"]
  | "ExportSpecifier" => ["orig", "exported"]
  | "ForInStatement" => ["left", "right", "body"]
  | "ForOfStatement" => ["left", "right", "body"]
  | "ForStatement" => ["init", "test", "update", "body"]
  | "FunctionDeclaration" => "identifier" :: functionOrder
  | "FunctionExpression" => "identifier" :: functionOrder
  | "GetterProperty" => ["key", "typeAnnotation", "body"]
  | "IfStatement" => ["test", "consequent", "alternate"]
  | "ImportDeclaration" => ["specifiers", "source", "with"]
  | "ImportSpecifier" => ["local", "imported"]
  | "JSXAttribute" => ["name", "value"]
  | "JSXElement" => ["opening", "children", "closing"]
  | "JSXFragment" => ["opening", "children", "closing"]
  | "JSXMemberExpression" => ["object", "property"]
  | "JSXNamespacedName" => ["namespace", "name"]
  | "JSXOpeningElement" => ["name", "attributes", "typeArguments"]
  | "KeyValuePatternProperty" => ["key", "value"]
  | "KeyValueProperty" => ["key", "value"]
  | "LabeledStatement" => ["label", "body"]
  | "MemberExpression" => ["object", "property"]
  | "MethodProperty" => "key" :: functionOrder
  | "NewExpression" => ["callee", "arguments", "typeArguments"]
  | "ObjectPattern" => ["properties", "typeAnnotation"]
  | "Parameter" => ["decorators", "pat"]
  | "PrivateMethod" => ["key", "function"]
  | "PrivateProperty" => ["key", "value", "typeAnnotation", "decorators"]
  | "RestElement" => ["argument", "typeAnnotation"]
  | "SetterProperty" => ["key", "thisParam", "param", "body"]
  | "SuperPropExpression" => ["obj", "property"]
  | "SwitchCase" => ["test", "consequent"]
  | "SwitchStatement" => ["discriminant", "cases"]
  | "TaggedTemplateExpression" => ["tag", "typeParameters", "template"]
  | "TemplateLiteral" => ["expressions", "types", "quasis"]
  | "TryStatement" => ["block", "handler", "finalizer"]
  | "TsAsExpression" => ["expression", "typeAnnotation"]
  | "TsCallSignatureDeclaration" => ["params", "typeAnnotation", "typeParams"]
  | "TsConditionalType" => ["checkType", "extendsType", "trueType", "falseType"]
  | "TsConstructSignatureDeclaration" => ["params", "typeAnnotation", "typeParams"]
  | "TsConstructorType" => ["params", "typeParams", "typeAnnotation"]
  | "TsEnumDeclaration" => ["id", "members"]
  | "TsEnumMember" => ["id", "init"]
  | "TsExpressionWithTypeArguments" => ["expression", "typeArguments"]
  | "TsFunctionType" => ["params", "typeParams", "typeAnnotation"]
  | "TsGetterSignature" => ["key", "typeAnnotation"]
  | "TsImportEqualsDeclaration" => ["id", "moduleRef"]
  | "TsImportType" => ["argument", "qualifier", "typeArguments", "attributes"]
  | "TsIndexSignature" => ["params", "typeAnnotation"]
  | "TsIndexedAccessType" => ["objectType", "indexType"]
  | "TsInstantiation" => ["expression", "typeArguments"]
  | "TsInterfaceDeclaration" => ["id", "typeParams", "extends", "body"]
  | "TsMappedType" => ["typeParam", "nameType", "typeAnnotation"]
  | "TsMethodSignature" => ["key", "params", "typeAnn", "typeParams"]
  | "TsModuleDeclaration" => ["id", "body"]
  | "TsNamespaceDeclaration" => ["id", "body"]
  | "TsParameterProperty" => ["decorators", "param"]
  | "TsPropertySignature" => ["key", "typeAnnotation"]
  | "TsQualifiedName" => ["left", "right"]
  | "TsSatisfiesExpression" => ["expression", "typeAnnotation"]
  | "TsSetterSignature" => ["key", "param"]
  | "TsTupleElement" => ["label", "ty"]
  | "TsTypeAliasDeclaration" => ["id", "typeParams", "typeAnnotation"]
  | "TsTypeAssertion" => ["expression", "typeAnnotation"]
  | "TsTypeParameter" => ["name", "constraint", "default"]
  | "TsTypePredicate" => ["paramName", "typeAnnotation"]
  | "TsTypeQuery" => ["exprName", "typeArguments"]
  | "TsTypeReference" => ["typeName", "typeParams"]
  | "VariableDeclarator" => ["id", "init"]
  | "WhileStatement" => ["test", "body"]
  | "WithStatement" => ["object", "body"]
  | _ => []

/-- The value of the first field with the given name. -/
def lookup {α : Type} (name : String) (fields : List (String × α)) : Option α :=
  (fields.find? fun entry => entry.1 = name).map Prod.snd

/-- Puts the named fields first, in the given order, and leaves the others behind them. -/
def arrange {α : Type} (order : List String) (fields : List (String × α)) : List (String × α) :=
  (order.filterMap fun name => (lookup name fields).map fun value => (name, value)) ++
    fields.filter fun entry => entry.1 ∉ order

theorem arrange_nil {α : Type} (fields : List (String × α)) : arrange [] fields = fields :=
  List.filter_eq_self.mpr fun _ _ => decide_eq_true List.not_mem_nil

end Retarget.Tree
