import ClientSdk.Document
import ClientSdk.TypeName

/-!
# Built-in Declarations

What every schema declares without saying so: the five scalars, the types that describe the
schema itself, and four directives. The names of the describing types begin with two
underscores, which no other type may.

## Main definitions

* `BuiltIn.types`, `BuiltIn.directives`, `BuiltIn.metaFields`.
-/

namespace ClientSdk

namespace BuiltIn

/-- The field `name` of the type `type`, with optional flags as its arguments. -/
def field (name type : String) (flags : List String := []) : FieldDecl where
  name := name
  type := .ofSdl type
  arguments := flags.map fun flag =>
    { name := flag, type := .named "Boolean" true, default := some (.boolean false) }

/-- The object type `name`. -/
def object (name : String) (fields : List FieldDecl) : TypeDecl where
  name := name
  body := .object [] fields

/-- The argument that asks for deprecated members too. -/
def deprecatedToo : List String := ["includeDeprecated"]

/-- The types that describe a schema. -/
def introspectionTypes : List TypeDecl :=
  [object "__Schema"
     [field "description" "String", field "types" "[__Type!]!", field "queryType" "__Type!",
      field "mutationType" "__Type", field "subscriptionType" "__Type",
      field "directives" "[__Directive!]!"],
   object "__Type"
     [field "kind" "__TypeKind!", field "name" "String", field "description" "String",
      field "fields" "[__Field!]" deprecatedToo, field "interfaces" "[__Type!]",
      field "possibleTypes" "[__Type!]", field "enumValues" "[__EnumValue!]" deprecatedToo,
      field "inputFields" "[__InputValue!]" deprecatedToo, field "ofType" "__Type",
      field "specifiedByURL" "String"],
   { name := "__TypeKind"
     body := .enum ["SCALAR", "OBJECT", "INTERFACE", "UNION", "ENUM", "INPUT_OBJECT", "LIST",
       "NON_NULL"] },
   object "__Field"
     [field "name" "String!", field "description" "String",
      field "args" "[__InputValue!]!" deprecatedToo, field "type" "__Type!",
      field "isDeprecated" "Boolean!", field "deprecationReason" "String"],
   object "__InputValue"
     [field "name" "String!", field "description" "String", field "type" "__Type!",
      field "defaultValue" "String", field "isDeprecated" "Boolean!",
      field "deprecationReason" "String"],
   object "__EnumValue"
     [field "name" "String!", field "description" "String", field "isDeprecated" "Boolean!",
      field "deprecationReason" "String"],
   object "__Directive"
     [field "name" "String!", field "description" "String",
      field "locations" "[__DirectiveLocation!]!", field "args" "[__InputValue!]!" deprecatedToo,
      field "isRepeatable" "Boolean!"],
   { name := "__DirectiveLocation"
     body := .enum ["QUERY", "MUTATION", "SUBSCRIPTION", "FIELD", "FRAGMENT_DEFINITION",
       "FRAGMENT_SPREAD", "INLINE_FRAGMENT", "VARIABLE_DEFINITION", "SCHEMA", "SCALAR", "OBJECT",
       "FIELD_DEFINITION", "ARGUMENT_DEFINITION", "INTERFACE", "UNION", "ENUM", "ENUM_VALUE",
       "INPUT_OBJECT", "INPUT_FIELD_DEFINITION"] }]

/-- The types of every schema. -/
def types : List TypeDecl :=
  introspectionTypes ++ standardScalars.map fun name => { name := name, body := .scalar }

/-- `name` is the name of a type of every schema. -/
def isTypeName (name : String) : Bool := types.any (·.name == name)

/-- The condition of the directives that leave a selection out. -/
def condition : List InputDecl := [{ name := "if", type := .named "Boolean" false }]

/-- The directives of every schema. -/
def directives : List DirectiveDecl :=
  [{ name := "skip", arguments := condition
     locations := ["FIELD", "FRAGMENT_SPREAD", "INLINE_FRAGMENT"] },
   { name := "include", arguments := condition
     locations := ["FIELD", "FRAGMENT_SPREAD", "INLINE_FRAGMENT"] },
   { name := "deprecated"
     arguments := [{ name := "reason", type := .named "String" true
                     default := some (.string "No longer supported") }]
     locations := ["FIELD_DEFINITION", "ARGUMENT_DEFINITION", "INPUT_FIELD_DEFINITION",
       "ENUM_VALUE"] },
   { name := "specifiedBy"
     arguments := [{ name := "url", type := .named "String" false }]
     locations := ["SCALAR"] }]

/-- The field that every object type has besides its own. -/
def typeNameField : FieldDecl := field "__typename" "String!"

/-- The fields that the root of queries has besides its own. -/
def metaFields : List FieldDecl :=
  [field "__schema" "__Schema!",
   { name := "__type", type := .named "__Type" true
     arguments := [{ name := "name", type := .named "String" false }] }]

end BuiltIn

end ClientSdk
