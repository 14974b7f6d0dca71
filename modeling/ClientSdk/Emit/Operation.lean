import ClientSdk.Emit.Code
import ClientSdk.ClassModel

/-!
# Code of an Operation

The file that is generated for one operation: two constants with its name and kind, names for the
types of its variables and its response, the structures of both, and a function that takes
flattened parameters and rebuilds the variables.

The structure of a class stands in the file and the structures of its nested classes in a module
beside it, so classes of two operations may have equal names. Names of one schema that become one
identifier are a collision where they would be declared twice.

## Main definitions

* `emitClass`: the items of a class.
* `emitOperation`: the file of an operation.
-/

namespace ClientSdk

namespace Emit

open Code

/-! ### Types -/

/-- From where types and constructors are referred to. -/
structure Scope where
  /-- The path of the module of all operations. -/
  package : PackagePath
  /-- The module of the nested classes; none inside that module. -/
  nestedModule : Option Ident

/-- The identifier of a class, with the module it is in. -/
def Scope.qualify (scope : Scope) (ident : Ident) : List Ident :=
  scope.nestedModule.toList ++ [ident]

/-- The type of a name: a number, a text, a truth value, a JSON value for a result marker, or
else a class. -/
def typeOfName (scope : Scope) (name : String) : Except GenerationError Ty :=
  if name = "Int" then .ok (.path [.plain "i32"])
  else if name = "Float" then .ok (.path [.plain "f64"])
  else if name = "String" then .ok (.path [.plain "String"])
  else if name = "Boolean" then .ok (.path [.plain "bool"])
  else if isResultMember name then .ok (.path [.plain "serde_json", .plain "Value"])
  else do return .path (scope.qualify (← Ident.ofTypeName name))

/-- A type that allows null is optional. -/
def optional (nullable : Bool) (type : Ty) : Ty :=
  if nullable then .apply (.plain "Option") type else type

/-- The type that a type of a class becomes. -/
def emitType (scope : Scope) : MemberType → Except GenerationError Ty
  | .named name nullable => do return optional nullable (← typeOfName scope name)
  | .list element nullable => do
    return optional nullable (.apply (.plain "Vec") (← emitType scope element))

/-- The parameters of a function. -/
def emitParameters (scope : Scope) (params : List Parameter) :
    Except GenerationError (List (Ident × Ty)) :=
  params.mapM fun param => do
    let ident ← Ident.ofValueName param.name
    return (ident, ← emitType scope param.type)

/-! ### Calls -/

/-- A path of plain identifiers. -/
def plainPath (idents : List Ident) : PackagePath :=
  { segments := idents.map fun ident => { ident } }

/-- The parts of a name that has dots between them. -/
def dottedParts (name : String) : List String :=
  go [] name.toList
where
  /-- The parts of the rest, when `part` is what has been read of the first one, last character
  first. -/
  go (part : List Char) : List Char → List String
    | [] => [String.ofList part.reverse]
    | c :: rest =>
      if c = '.' then String.ofList part.reverse :: go [] rest else go (c :: part) rest

/-- The path of a constructor. A name of one part is a class of this scope, and one of three parts
is an operation, a class of it and a class nested in that. -/
def pathOfConstructor (scope : Scope) (name : String) : Except GenerationError PackagePath :=
  match dottedParts name with
  | [type] => do
    let type ← Ident.ofTypeName type
    return plainPath (scope.qualify type ++ [.plain "new"])
  | [operation, cls, type] => do
    let operation ← Ident.ofValueName operation
    let cls ← Ident.ofValueName cls
    let type ← Ident.ofTypeName type
    return { scope.package with
      segments := scope.package.segments ++
        (plainPath [operation, cls, type, .plain "new"]).segments }
  | _ => .error (.unresolvedConstructor name)

mutual

/-- The expression of an argument. -/
def emitArgument (scope : Scope) : Argument → Except GenerationError Expr
  | .parameter _ source _ => do return .name (← Ident.ofValueName source)
  | .call _ function arguments nullable _ => do
    let path ← pathOfConstructor scope function
    let call := Expr.call path (← emitArguments scope arguments)
    return if nullable then .call (plainPath [.plain "Some"]) [call] else call

/-- The expressions of arguments. -/
def emitArguments (scope : Scope) : List Argument → Except GenerationError (List Expr)
  | [] => .ok []
  | arg :: args => do
    let first ← emitArgument scope arg
    return first :: (← emitArguments scope args)

end

/-! ### Structures -/

/-- The result type of constructors. -/
def selfIdent : Ident := .plain "Self"

/-- Silences the warning about functions with many parameters. -/
def manyArguments : Attribute := .allow [.plain "clippy", .plain "too_many_arguments"]

/-- What is implemented automatically for every structure. -/
def derived : Attribute :=
  .derive (["Debug", "Clone", "PartialEq", "Serialize", "Deserialize"].map Ident.plain)

/-- Imports what is derived. -/
def imports : Item := .use (.plain "serde") [.plain "Deserialize", .plain "Serialize"]

/-- A field with the name that its value has in serialized form, where its identifier does not
spell that name. -/
def emitField (name : String) (ident : Ident) (type : Ty) : Field where
  attributes := if ident.text = name then [] else [.rename name]
  name := ident
  type := type

/-- The fields of the class `owner`, when `taken` are the identifiers of the fields before. -/
def emitFields (scope : Scope) (owner : String) (taken : List Ident) :
    List Parameter → Except GenerationError (List Field)
  | [] => .ok []
  | param :: params => do
    let ident ← Ident.ofValueName param.name
    if ident ∈ taken then .error (.namingCollision (.structField owner) ident.spelling)
    else do
      let field := emitField param.name ident (← emitType scope param.type)
      return field :: (← emitFields scope owner (ident :: taken) params)

/-- The constructor that takes a value for every field. -/
def primaryConstructor (fields : List Field) : Function where
  docs := [" Creates a value from every field."]
  attributes := [manyArguments]
  name := .plain "new"
  parameters := fields.map fun field => (field.name, field.type)
  result := selfIdent
  body := .selfValue (fields.map (·.name))

/-- The constructor that takes flattened parameters. -/
def flattenedConstructor (scope : Scope) (constructor : FlatConstructor) :
    Except GenerationError Function := do
  let parameters ← emitParameters scope constructor.parameters
  let arguments ← emitArguments scope constructor.arguments
  return {
    docs := [" Creates a value from flattened scalar parameters, rebuilding",
      " every nested object."]
    attributes := [manyArguments]
    name := .plain "from_flattened"
    parameters
    result := selfIdent
    body := .call (plainPath [selfIdent, .plain "new"]) arguments }

/-- The structure of a class, with its constructors. -/
def emitStruct (scope : Scope) (doc name : String) (params : List Parameter)
    (others : List Function) : Except GenerationError (List Item) := do
  let ident ← Ident.ofTypeName name
  let fields ← emitFields scope name [] params
  return [.struct [doc] [derived] ident fields, .impl ident (primaryConstructor fields :: others)]

/-- The structures of the classes nested in `owner`, when `taken` are the identifiers of those
before. -/
def emitNested (scope : Scope) (owner : String) (taken : List Ident) :
    List ClassDecl → Except GenerationError (List Item)
  | [] => .ok []
  | cls :: classes => do
    let ident ← Ident.ofTypeName cls.name
    if ident ∈ taken then .error (.namingCollision (.nestedClass owner) cls.name)
    else do
      let doc := s!" GraphQL type `{cls.name}`."
      let items ← emitStruct scope doc cls.name cls.parameters []
      return items ++ (← emitNested scope owner (ident :: taken) classes)

/-- A class with the module of its nested classes, if it has any. -/
def emitClass (package : PackagePath) (doc : String) (cls : ClassDecl) :
    Except GenerationError (List Item) := do
  let nestedModule ← Ident.ofValueName cls.name
  let outside : Scope := { package, nestedModule := some nestedModule }
  let inside : Scope := { package, nestedModule := none }
  let others ← cls.secondary.mapM (flattenedConstructor outside)
  let items ← emitStruct outside doc cls.name cls.parameters others
  if cls.nested.isEmpty then return items
  else do
    let nested ← emitNested inside cls.name [] cls.nested
    let ident ← Ident.ofTypeName cls.name
    let moduleDoc := s!" Nested types of [`{ident.spelling}`]."
    return items ++ [.module [moduleDoc] nestedModule (imports :: nested)]

/-! ### Operations -/

/-- The code of the variables of an operation. -/
structure VariablesCode where
  /-- The type of the variables. -/
  type : Ty := .unit
  /-- Its structure. -/
  items : List Item := []
  /-- The function that builds the variables. -/
  helper : List Item := []

/-- The code of the variables of an operation, if it has any. -/
def emitVariables (package : PackagePath) (model : ClassModel) :
    Except GenerationError VariablesCode :=
  match model.variablesClass with
  | none => .ok {}
  | some cls => do
    let ident ← Ident.ofTypeName cls.name
    let doc := s!" Variables of the `{model.operationName}` {model.operationKind.keyword}."
    let items ← emitClass package doc cls
    let scope : Scope := { package, nestedModule := some (← Ident.ofValueName cls.name) }
    let parameters ← emitParameters scope model.helperParameters
    let arguments ← emitArguments scope model.helperArguments
    return {
      type := .path [ident]
      items
      helper := [.function {
        docs := [" Builds [`Variables`] from flattened scalar parameters."]
        attributes := [manyArguments]
        name := .plain "variables"
        parameters
        result := .plain "Variables"
        body := .call (plainPath [ident, .plain "new"]) arguments }] }

/-- The type of the response of an operation with its structure, if anything is selected. -/
def emitResponse (package : PackagePath) (model : ClassModel) :
    Except GenerationError (Ty × List Item) :=
  match model.responseClass with
  | none => .ok (.unit, [])
  | some cls => do
    let ident ← Ident.ofTypeName cls.name
    let doc := s!" Response data of the `{model.operationName}` {model.operationKind.keyword}."
    return (.path [ident], ← emitClass package doc cls)

end Emit

open Emit Code in
/-- The file of an operation. -/
def emitOperation (model : ClassModel) : Except GenerationError File := do
  let package ← PackagePath.parse model.package
  let vars ← emitVariables package model
  let (response, responseItems) ← emitResponse package model
  let kind := model.operationKind.keyword
  return {
    docs := [s!" `{model.operationName}` {kind}."]
    items :=
      [imports,
       .constant [" Operation name as written in the document."] (.plain "OPERATION_NAME")
         model.operationName,
       .constant [" `query` or `mutation`."] (.plain "OPERATION_KIND") kind,
       .typeAlias (.plain "Variables") vars.type,
       .typeAlias (.plain "Data") response] ++
      vars.items ++ responseItems ++ vars.helper }

open Code in
/-- The file that declares the modules of operations. -/
def emitIndex (operations : List String) : Except GenerationError File := do
  let modules ← operations.mapM Ident.ofValueName
  return {
    docs := [" Generated GraphQL operations.", "",
      " Each module holds the variables and response types of one", " operation."]
    items := modules.map .moduleFile }

end ClientSdk
