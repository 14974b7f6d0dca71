import ClientSdk.Document.Declarations
import ClientSdk.Document.Grounded
import ClientSdk.Document.Parser
import ClientSdk.Error
import ClientSdk.Schema.Sdl

/-!
# Valid Schemas

A schema is made valid by writing it as a document, reading that document back and checking the
rules of validity on what it declares. Operations are checked against these declarations.

## Main definitions

* `Declarations.isValid`: the rules of validity.
* `ValidSchema`: declarations that obey them.
* `Schema.toValid`: the declarations of a schema, if they are valid.
-/

namespace ClientSdk

/-! ### Kinds of types -/

/-- Values of the type can be answered. -/
def TypeBody.isOutput : TypeBody → Bool
  | input _ => false
  | _ => true

/-- Values of the type can be passed as arguments. -/
def TypeBody.isInput : TypeBody → Bool
  | scalar => true
  | enum _ => true
  | input _ => true
  | _ => false

/-- Values of the type have no fields to select. -/
def TypeBody.isLeaf : TypeBody → Bool
  | scalar => true
  | enum _ => true
  | _ => false

/-- The type is an object type. -/
def TypeBody.isObject : TypeBody → Bool
  | object .. => true
  | _ => false

namespace Declarations

/-- The body of the type `name` is declared and satisfies `p`. -/
def bodySatisfies (declarations : Declarations) (p : TypeBody → Bool) (name : String) : Bool :=
  (declarations.type? name).any fun declaration => p declaration.body

/-! ### Rules -/

/-- `name` is not reserved for built-in declarations. -/
def isFreeName (name : String) : Bool := !(['_', '_'].isPrefixOf name.toList)

/-- An argument, or a field of an input type, has a free name and an input type. -/
def isValidInput (declarations : Declarations) (input : InputDecl) : Bool :=
  isFreeName input.name && declarations.bodySatisfies TypeBody.isInput input.type.leafName

/-- A field has a free name and an output type, and its arguments are valid and distinct. -/
def isValidField (declarations : Declarations) (field : FieldDecl) : Bool :=
  isFreeName field.name &&
    declarations.bodySatisfies TypeBody.isOutput field.type.leafName &&
    field.arguments.all declarations.isValidInput &&
    allDistinct (field.arguments.map (·.name))

/-- A type has a free name and, unless it is a scalar, at least one field, and its fields are
valid. Of the kinds of types, a schema has scalars, object types and input types. -/
def isValidType (declarations : Declarations) (declaration : TypeDecl) : Bool :=
  isFreeName declaration.name &&
    match declaration.body with
    | .scalar => true
    | .object interfaces fields =>
      interfaces.isEmpty && !fields.isEmpty && fields.all declarations.isValidField
    | .input fields => !fields.isEmpty && fields.all declarations.isValidInput
    | _ => false

/-- The names of the types without which no value of the type can be: those of its single
fields that exclude null, for an input type. -/
def requiredTypes (declaration : TypeDecl) : List String :=
  match declaration.body with
  | .input fields =>
    fields.filterMap fun field =>
      match field.type with
      | .named name false => some name
      | _ => none
  | _ => []

/-- There is a root of queries, and every root is an object type. -/
def hasValidRoots (declarations : Declarations) : Bool :=
  (declarations.root? .query).isSome &&
    declarations.roots.all fun root => declarations.bodySatisfies TypeBody.isObject root.2

/-- The roots and the types are valid, and no input type requires itself, directly or through
others. -/
def isValid (declarations : Declarations) : Bool :=
  declarations.hasValidRoots && declarations.types.all declarations.isValidType &&
    References.isGrounded (declarations.types.map fun type => (type.name, requiredTypes type))

end Declarations

/-! ### Valid schemas -/

/-- The declarations of a valid schema document. -/
structure ValidSchema where
  /-- What is declared. -/
  declarations : Declarations
  /-- The declarations obey the rules. -/
  valid : declarations.isValid = true

/-- The names of the types of a valid schema that are not built in, in order. -/
def ValidSchema.typeNames (schema : ValidSchema) : List String :=
  schema.declarations.types.map (·.name)

/-- The declarations of a schema, written as a document and read back, if they are valid. -/
def Schema.toValid (schema : Schema) : Except GenerationError ValidSchema :=
  match (Document.parse? schema.sdl).bind Declarations.ofDocument? with
  | some declarations =>
    if valid : declarations.isValid = true then .ok { declarations, valid }
    else .error .invalidDocument
  | none => .error .invalidDocument

end ClientSdk
