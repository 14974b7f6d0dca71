import ClientSdk.Operation

/-!
# Class Models

What is generated for one operation, in a form that belongs to no programming language: a class
for its variables, a class for its response, and a helper that rebuilds the variables from
flattened parameters.

## Main definitions

* `MemberType`: a type as it stands in a generated class; `MemberType.ofRef` makes it.
* `Parameter`, `Argument`: what constructors take and what is passed to them.
* `ClassDecl`, `ClassModel`.
-/

namespace ClientSdk

/-! ### Types -/

/-- A type in a generated class. -/
inductive MemberType where
  /-- A scalar or a class. -/
  | named (name : String) (nullable : Bool)
  /-- A list. -/
  | list (element : MemberType) (nullable : Bool)
  deriving DecidableEq, Repr, Inhabited

namespace MemberType

/-- Null is allowed at the outermost level. -/
def nullable : MemberType → Bool
  | named _ nullable => nullable
  | list _ nullable => nullable

/-- The type in words: `List<Movie?>`. -/
def describe : MemberType → String
  | named name nullable => name ++ (if nullable then "?" else "")
  | list element nullable => "List<" ++ element.describe ++ ">" ++ (if nullable then "?" else "")

end MemberType

/-- The type in a generated class that a schema type gives: names become those of
members, and the levels stay. -/
def MemberType.ofRef : TypeRef → MemberType
  | .named name nullable => .named (memberName name) nullable
  | .list element nullable => .list (MemberType.ofRef element) nullable

/-! ### Parameters and arguments -/

/-- A parameter of a constructor or a function. -/
structure Parameter where
  /-- The name of the parameter. -/
  name : String
  /-- Its type. -/
  type : MemberType
  /-- No parameter comes after it. -/
  isLast : Bool := false
  deriving DecidableEq, Repr, Inhabited

/-- The parameter for a value of a schema type. -/
def Parameter.of (name : String) (type : TypeRef) : Parameter :=
  { name := name, type := .ofRef type }

/-- What is passed to a parameter of a constructor. -/
inductive Argument where
  /-- To the parameter `name`, the parameter `source` of the enclosing function. -/
  | parameter (name source : String) (isLast : Bool)
  /-- To the parameter `name`, a new value of the class that `function` constructs;
  `nullable` when the parameter accepts null. -/
  | call (name function : String) (arguments : List Argument) (nullable isLast : Bool)
  deriving Inhabited

namespace Argument

/-- The name of the parameter that receives the argument. -/
def name : Argument → String
  | parameter name _ _ => name
  | call name _ _ _ _ => name

/-- No argument comes after it. -/
def isLast : Argument → Bool
  | parameter _ _ isLast => isLast
  | call _ _ _ _ isLast => isLast

/-- The constructor that is called, if the argument is a call. -/
def function? : Argument → Option String
  | parameter _ _ _ => none
  | call _ function _ _ _ => some function

/-- The argument marked as last or not. -/
def withLast (isLast : Bool) : Argument → Argument
  | parameter name source _ => parameter name source isLast
  | call name function arguments nullable _ => call name function arguments nullable isLast

end Argument

/-- Marks the last parameter of a list, and no other. -/
def Parameter.markLast : List Parameter → List Parameter
  | [] => []
  | [param] => [{ param with isLast := true }]
  | param :: params => { param with isLast := false } :: Parameter.markLast params

/-- Marks the last argument of a list, and no other. What is inside calls stays. -/
def Argument.markLast : List Argument → List Argument
  | [] => []
  | [arg] => [arg.withLast true]
  | arg :: args => arg.withLast false :: Argument.markLast args

/-! ### Classes -/

/-- A constructor that takes flattened parameters and calls the primary constructor. -/
structure FlatConstructor where
  /-- The flattened parameters. -/
  parameters : List Parameter
  /-- What the primary constructor is given. -/
  arguments : List Argument
  deriving Inhabited

/-- A generated class. -/
structure ClassDecl where
  /-- The name of the class. -/
  name : String
  /-- The parameters of the primary constructor, which are the fields of the class. -/
  parameters : List Parameter
  /-- The classes declared inside it. -/
  nested : List ClassDecl := []
  /-- Its other constructors. -/
  secondary : List FlatConstructor := []
  deriving Inhabited

namespace ClassDecl

/-- The class has more than its primary constructor. -/
def isCompound (cls : ClassDecl) : Bool := !cls.nested.isEmpty || !cls.secondary.isEmpty

/-- The first nested class called `name`. -/
def inner? (cls : ClassDecl) (name : String) : Option ClassDecl :=
  cls.nested.find? (·.name == name)

/-- The first constructor parameter called `name`. -/
def parameter? (cls : ClassDecl) (name : String) : Option Parameter :=
  cls.parameters.find? (·.name == name)

end ClassDecl

/-- Everything that is generated for one operation. -/
structure ClassModel where
  /-- The package that the code is generated into. -/
  package : String
  /-- The name of the operation. -/
  operationName : String
  /-- The root the operation starts from. -/
  operationKind : OperationKind
  /-- The class of the variables; none without variables. -/
  variablesClass : Option ClassDecl := none
  /-- The class of the response; none where nothing is selected. -/
  responseClass : Option ClassDecl := none
  /-- The flattened parameters of the helper function. -/
  helperParameters : List Parameter := []
  /-- What the helper function passes to the constructor of the variables. -/
  helperArguments : List Argument := []
  deriving Inhabited

/-- The name of the class of the variables of an operation. -/
def nameOfVariables (operation : String) : String := operation ++ "Variables"

/-- The name of the class of the response of an operation. -/
def nameOfResponse (operation : String) : String := operation ++ "Data"

end ClientSdk
