import ClientSdk.Document.Declarations
import ClientSdk.Document.Parser
import ClientSdk.Error
import ClientSdk.Schema

/-!
# Reading a Schema

The schema that a document declares. Only object and input types can be read. Directives,
default values and implemented interfaces have no place in a schema and are left out, and nothing
is checked about the types that are referred to.

## Main definitions

* `Schema.ofText`: the schema of a text.
-/

namespace ClientSdk

/-- An argument of a schema. -/
def InputDecl.toArgumentDef (declaration : InputDecl) : ArgumentDef where
  name := declaration.name
  type := declaration.type
  description := declaration.description

/-- A field of an input type. -/
def InputDecl.toFieldDef (declaration : InputDecl) : FieldDef where
  name := declaration.name
  type := declaration.type
  description := declaration.description

/-- A field of an object type. -/
def FieldDecl.toFieldDef (declaration : FieldDecl) : FieldDef where
  name := declaration.name
  type := declaration.type
  arguments := declaration.arguments.map (·.toArgumentDef)
  description := declaration.description

/-- The type that is declared, if it is of a kind that can be read. -/
def TypeDecl.toTypeDef (declaration : TypeDecl) : Except GenerationError TypeDef :=
  match declaration.body with
  | .object _ fields =>
    .ok { name := declaration.name, fields := fields.map (·.toFieldDef)
          description := declaration.description }
  | .input fields =>
    .ok { name := declaration.name, kind := .input, fields := fields.map (·.toFieldDef)
          description := declaration.description }
  | body => .error (.unsupportedDefinition declaration.name body.label)

/-- A schema with `type` in its place: it replaces the root whose name it has, and is one of the
other types if there is no such root. -/
def Schema.place (query mutation : String) (schema : Schema) (type : TypeDef) : Schema :=
  if type.name = query then { schema with query := type }
  else if type.name = mutation then { schema with mutation := type }
  else schema.declare type

/-- The schema that is declared. A root that is not declared has no fields. -/
def Declarations.toSchema (declarations : Declarations) : Except GenerationError Schema := do
  let types ← declarations.types.mapM (·.toTypeDef)
  let query := (declarations.root? .query).getD (usualRootName .query)
  let mutation := (declarations.root? .mutation).getD (usualRootName .mutation)
  return types.foldl (Schema.place query mutation) (Schema.ofRoots query mutation)

/-- The schema that a text declares. -/
def Schema.ofText (text : String) : Except GenerationError Schema :=
  match (Document.parse? text).bind Declarations.ofDocument? with
  | some declarations => declarations.toSchema
  | none => .error .malformedSchema

end ClientSdk
