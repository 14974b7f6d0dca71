import ClientSdk.Json
import ClientSdk.ClassModel

/-!
# Class Models as JSON

The JSON form in which class models are printed: a structure is an object with its fields in
order, and a value with several forms an object with the name of the form as its only key.

## Main definitions

* `ClassModel.toJson`, `ClassDecl.toJson`, `Parameter.toJson`, `Argument.toJson`.
-/

namespace ClientSdk

open Json

/-- The JSON form of a type in a class. -/
def MemberType.toJson : MemberType → Json
  | named name nullable =>
    object [("Named", object [("name", string name), ("nullable", bool nullable)])]
  | list element nullable =>
    object [("List", object [("element", element.toJson), ("nullable", bool nullable)])]

/-- The JSON form of a parameter. -/
def Parameter.toJson (param : Parameter) : Json :=
  object [("name", string param.name), ("ty", param.type.toJson), ("is_last", bool param.isLast)]

mutual

/-- The JSON form of an argument. -/
def Argument.toJson : Argument → Json
  | .parameter name source isLast =>
    object [("name", string name), ("value", object [("Parameter", string source)]),
      ("is_last", bool isLast)]
  | .call name function arguments nullable isLast =>
    object [("name", string name),
      ("value", object [("Call", object [("function_name", string function),
        ("arguments", array (Argument.toJsonList arguments)), ("nullable", bool nullable)])]),
      ("is_last", bool isLast)]

/-- The JSON forms of a list of arguments. -/
def Argument.toJsonList : List Argument → List Json
  | [] => []
  | arg :: args => arg.toJson :: Argument.toJsonList args

end

/-- The JSON form of a secondary constructor. -/
def FlatConstructor.toJson (constructor : FlatConstructor) : Json :=
  object [("parameters", array (constructor.parameters.map Parameter.toJson)),
    ("primary_constructor_arguments", array (Argument.toJsonList constructor.arguments))]

mutual

/-- The JSON form of a class. -/
def ClassDecl.toJson : ClassDecl → Json
  | ⟨name, parameters, nested, secondary⟩ =>
    object [("name", string name),
      ("constructor_parameters", array (parameters.map Parameter.toJson)),
      ("nested_classes", array (ClassDecl.toJsonList nested)),
      ("secondary_constructors", array (secondary.map FlatConstructor.toJson))]

/-- The JSON forms of a list of classes. -/
def ClassDecl.toJsonList : List ClassDecl → List Json
  | [] => []
  | cls :: classes => cls.toJson :: ClassDecl.toJsonList classes

end

/-- The JSON form of a class model. -/
def ClassModel.toJson (model : ClassModel) : Json :=
  object [("package", string model.package), ("operation_name", string model.operationName),
    ("operation_kind", string model.operationKind.keyword),
    ("variables", (model.variablesClass.map ClassDecl.toJson).getD null),
    ("response", (model.responseClass.map ClassDecl.toJson).getD null),
    ("convenience_parameters", array (model.helperParameters.map Parameter.toJson)),
    ("convenience_arguments", array (Argument.toJsonList model.helperArguments))]

end ClientSdk
