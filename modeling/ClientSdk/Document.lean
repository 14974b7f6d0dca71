import ClientSdk.TypeRef

/-!
# Documents

The syntax of schema and operation documents, as trees. A document is a list of definitions:
of a schema and its types, of directives, and of operations and fragments.

## Main definitions

* `Value`, `Directive`: what may be attached to a definition or passed to a field.
* `TypeDecl`, `DirectiveDecl`: declarations of a schema document.
* `SelectionDecl`, `OperationDecl`, `FragmentDecl`: declarations of an operation document.
* `Definition`, `Document`.
-/

namespace ClientSdk

/-! ### Values -/

/-- A value as written. Numbers are kept as texts. -/
inductive Value where
  /-- The value of a variable. -/
  | variableRef (name : String)
  /-- A whole number. -/
  | int (text : String)
  /-- A number with a fraction or an exponent. -/
  | float (text : String)
  /-- A text. -/
  | string (text : String)
  /-- A truth value. -/
  | boolean (value : Bool)
  /-- The null value. -/
  | null
  /-- A value of an enumeration. -/
  | enum (name : String)
  /-- A list of values. -/
  | list (items : List Value)
  /-- Named values. -/
  | object (fields : List (String × Value))
  deriving Inhabited

/-- A directive with its arguments. -/
structure Directive where
  /-- The name of the directive. -/
  name : String
  /-- The values of its arguments. -/
  arguments : List (String × Value) := []
  deriving Inhabited

/-- The value of the argument `name`. -/
def Directive.argument? (directive : Directive) (name : String) : Option Value :=
  directive.arguments.lookup name

/-! ### Schema documents -/

/-- An argument, or a field of an input type. -/
structure InputDecl where
  /-- Its documentation. -/
  description : Option String := none
  /-- Its name. -/
  name : String
  /-- The type of its values. -/
  type : TypeRef
  /-- The value that stands for an absent one. -/
  default : Option Value := none
  /-- The directives on it. -/
  directives : List Directive := []
  deriving Inhabited

/-- A field of an object or interface type. -/
structure FieldDecl where
  /-- Its documentation. -/
  description : Option String := none
  /-- Its name. -/
  name : String
  /-- Its arguments. -/
  arguments : List InputDecl := []
  /-- The type of its values. -/
  type : TypeRef
  /-- The directives on it. -/
  directives : List Directive := []
  deriving Inhabited

/-- What the kinds of types declare. -/
inductive TypeBody where
  /-- A leaf type. -/
  | scalar
  /-- An object type. -/
  | object (interfaces : List String) (fields : List FieldDecl)
  /-- An interface type. -/
  | interface (interfaces : List String) (fields : List FieldDecl)
  /-- A union type. -/
  | union (members : List String)
  /-- An enumeration. -/
  | enum (values : List String)
  /-- An input type. -/
  | input (fields : List InputDecl)
  deriving Inhabited

/-- The name of a kind of type. -/
def TypeBody.label : TypeBody → String
  | scalar => "scalar"
  | object .. => "object"
  | interface .. => "interface"
  | union _ => "union"
  | enum _ => "enum"
  | input _ => "input object"

/-- A declaration of a type, or an addition to one. -/
structure TypeDecl where
  /-- Its documentation. -/
  description : Option String := none
  /-- Its name. -/
  name : String
  /-- The directives on it. -/
  directives : List Directive := []
  /-- What it declares. -/
  body : TypeBody
  deriving Inhabited

/-- The roots that a schema can have. -/
inductive RootKind where
  /-- The root of queries. -/
  | query
  /-- The root of mutations. -/
  | mutation
  /-- The root of subscriptions. -/
  | subscription
  deriving DecidableEq, Repr, Inhabited

/-- The root with the given keyword. -/
def RootKind.ofKeyword? (keyword : String) : Option RootKind :=
  if keyword = "query" then some .query
  else if keyword = "mutation" then some .mutation
  else if keyword = "subscription" then some .subscription
  else none

/-- The roots of a schema, with the names of their types. -/
abbrev Roots := List (RootKind × String)

/-- A declaration of a directive. -/
structure DirectiveDecl where
  /-- The name of the directive. -/
  name : String
  /-- Its arguments. -/
  arguments : List InputDecl := []
  /-- It may be repeated in one place. -/
  repeatable : Bool := false
  /-- The places where it may stand. -/
  locations : List String
  deriving Inhabited

/-! ### Operation documents -/

/-- A variable that an operation declares. -/
structure VariableDecl where
  /-- Its name, without the dollar sign. -/
  name : String
  /-- The type of its values. -/
  type : TypeRef
  /-- The value that stands for an absent one. -/
  default : Option Value := none
  /-- The directives on it. -/
  directives : List Directive := []
  deriving Inhabited

/-- An entry of a selection set, as written. -/
inductive SelectionDecl where
  /-- A field, with its arguments and its own selections. -/
  | field (alias? : Option String) (name : String) (arguments : List (String × Value))
      (directives : List Directive) (selections : List SelectionDecl)
  /-- A named fragment. -/
  | spread (fragment : String) (directives : List Directive)
  /-- Selections in place, on a type condition if one is given. -/
  | inlineFragment (typeCondition : Option String) (directives : List Directive)
      (selections : List SelectionDecl)
  deriving Inhabited

/-- An operation. -/
structure OperationDecl where
  /-- The root it starts from. -/
  kind : RootKind
  /-- Its name, if it has one. -/
  name : Option String := none
  /-- Its variables. -/
  vars : List VariableDecl := []
  /-- The directives on it. -/
  directives : List Directive := []
  /-- What it selects. -/
  selections : List SelectionDecl
  deriving Inhabited

/-- A named fragment. -/
structure FragmentDecl where
  /-- Its name. -/
  name : String
  /-- The type that its selections are on. -/
  typeCondition : String
  /-- The directives on it. -/
  directives : List Directive := []
  /-- What it selects. -/
  selections : List SelectionDecl
  deriving Inhabited

/-! ### Documents -/

/-- A definition of a document. -/
inductive Definition where
  /-- The roots of the schema. -/
  | schema (directives : List Directive) (roots : Roots)
  /-- More roots or directives of the schema. -/
  | schemaExtension (directives : List Directive) (roots : Roots)
  /-- A directive. -/
  | directive (declaration : DirectiveDecl)
  /-- A type. -/
  | type (declaration : TypeDecl)
  /-- Additions to a type. -/
  | typeExtension (declaration : TypeDecl)
  /-- An operation. -/
  | operation (declaration : OperationDecl)
  /-- A fragment. -/
  | fragment (declaration : FragmentDecl)
  deriving Inhabited

/-- A document: definitions in order. -/
abbrev Document := List Definition

end ClientSdk
