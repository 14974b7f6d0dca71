import ClientSdk.Text.Case

/-!
# Errors

Everything that can stop a generation run, by cause, and the text that reports it.

## Main definitions

* `Reference`: a place in a schema or an operation that names a type.
* `Clash`: a name that is synthesized although its place is taken.
* `GenerationError`: the causes, with `GenerationError.message`.
-/

namespace ClientSdk

/-- A place that names a type. -/
inductive Reference where
  /-- The type of a field. -/
  | field (type field : String)
  /-- The type of an argument of a field. -/
  | argument (type field argument : String)
  /-- The type of a variable of an operation. -/
  | variableOf (name operation : String)
  /-- The type that is to get a relation field. -/
  | relation
  /-- The type that is to get an input type. -/
  | inputType
  deriving DecidableEq, Repr

/-- A reference in words. -/
def Reference.describe : Reference → String
  | field type name => s!"field \"{type}.{name}\""
  | argument type name arg => s!"argument \"{type}.{name}({arg})\""
  | variableOf name operation => s!"variable \"${name}\" of operation \"{operation}\""
  | relation => "relation field"
  | inputType => "input type synthesis"

/-- Where a synthesized name meets one that exists already. -/
inductive Clash where
  /-- A relation field of a type. -/
  | relationField (type : String)
  /-- The input type of an object type. -/
  | inputType
  /-- A field of a root. -/
  | rootField (root : String)
  /-- A class nested in a class. -/
  | nestedClass (owner : String)
  /-- A field of a generated structure. -/
  | structField (owner : String)
  /-- The module of an operation. -/
  | operationModule
  deriving DecidableEq, Repr

/-- What was being synthesized. -/
def Clash.subject : Clash → String
  | relationField _ => "relation field"
  | inputType => "input type"
  | rootField root => s!"{Text.lower root} field"
  | nestedClass _ => "nested class"
  | structField _ => "field"
  | operationModule => "operation module"

/-- What holds the name already. -/
def Clash.owner : Clash → String
  | relationField type => s!"type \"{type}\""
  | inputType => "the schema"
  | rootField root => s!"type \"{root}\""
  | nestedClass owner => s!"class \"{owner}\""
  | structField owner => s!"class \"{owner}\""
  | operationModule => "the output directory"

/-- A cause that stops a run. -/
inductive GenerationError where
  /-- A type that is referred to is not in the schema. -/
  | missingType (name : String) (reference : Reference)
  /-- A selection that is no plain field. -/
  | unsupportedSelection (form location : String)
  /-- Singular fields lead from a type back to it; the names on the way, first one again
  last. -/
  | cyclicType (names : List String)
  /-- One type is used with two sets of fields. -/
  | conflictingProjection (operation type : String)
  /-- A `@pick` directive lists a field that the type of the variable lacks. -/
  | unknownPickedField (name field type : String)
  /-- A selected field that the type lacks. -/
  | unknownField (type field : String)
  /-- Two flattened parameters have one name. -/
  | duplicateParameter (operation name : String)
  /-- A definition of a kind that is not supported. -/
  | unsupportedDefinition (name kind : String)
  /-- A synthesized name is taken. -/
  | namingCollision (clash : Clash) (name : String)
  /-- An operation without a name. -/
  | anonymousOperation (path : String)
  /-- A schema document that is malformed. -/
  | malformedSchema
  /-- A schema or an operation document that breaks a rule of validation. -/
  | invalidDocument
  /-- A file cannot be read. -/
  | unreadable (path : String)
  /-- A file cannot be written. -/
  | unwritable (path : String)
  /-- The package of the generated code is no path. -/
  | invalidPackage (package : String)
  /-- The generated code breaks a rule of its language. -/
  | invalidCode
  /-- The name of a constructor has neither one part nor three. -/
  | unresolvedConstructor (name : String)
  /-- A plan without operation documents. -/
  | noOperations
  /-- A plan whose package is no module path. -/
  | packageNotModulePath (package : String)
  /-- A name that cannot be made an identifier of the generated code. -/
  | notAnIdentifier (name : String)
  deriving DecidableEq, Repr

/-- The text that reports an error. The reports of malformed and invalid documents and of
names that are no identifiers are not fixed, nor what the operating system adds to a failure
to read or write. -/
def GenerationError.message : GenerationError → String
  | missingType name reference =>
    s!"Schema is missing type '{name}' referenced by {reference.describe}"
  | unsupportedSelection form location => s!"Unsupported selection: {form} in {location}"
  | cyclicType names => "Cyclic type reference: " ++ " -> ".intercalate names
  | conflictingProjection operation type =>
    s!"Type '{type}' is used with different field selections in operation '{operation}'"
  | unknownPickedField name field type =>
    s!"Variable '${name}' picks unknown field '{field}' of type '{type}'"
  | unknownField type field => s!"Type '{type}' has no field '{field}'"
  | duplicateParameter operation name =>
    s!"Operation '{operation}' has conflicting convenience parameter '{name}'"
  | unsupportedDefinition name kind => s!"Unsupported {kind} definition '{name}'"
  | namingCollision clash name =>
    s!"Naming collision: synthesized {clash.subject} '{name}' already exists in {clash.owner}"
  | anonymousOperation path => s!"Anonymous operation in '{path}': every operation must be named"
  | malformedSchema => "The schema document is malformed"
  | invalidDocument => "The document is invalid"
  | unreadable path => s!"Failed to read input file '{path}'"
  | unwritable path => s!"Failed to write output file '{path}'"
  | invalidPackage package => s!"Code generation failed: Invalid package path '{package}'"
  | invalidCode => "Code generation failed: Generated code is invalid"
  | unresolvedConstructor name =>
    s!"Code generation failed: Cannot resolve constructor '{name}'"
  | noOperations => "Invalid configuration: At least one operation document is required"
  | packageNotModulePath package =>
    s!"Invalid configuration: Package '{package}' is not a Rust module path"
  | notAnIdentifier name => s!"'{name}' cannot be made an identifier"

/-- The name of the kind of an error. -/
def GenerationError.kind : GenerationError → String
  | missingType .. => "SchemaConsistency"
  | unsupportedSelection .. => "UnsupportedSelection"
  | cyclicType _ => "CyclicType"
  | conflictingProjection .. => "ConflictingProjection"
  | unknownPickedField .. => "UnknownPickedField"
  | unknownField .. => "UnknownField"
  | duplicateParameter .. => "DuplicateParameter"
  | unsupportedDefinition .. => "UnsupportedDefinition"
  | namingCollision .. => "NamingCollision"
  | anonymousOperation _ => "AnonymousOperation"
  | malformedSchema => "ParseError"
  | invalidDocument => "ValidationError"
  | unreadable _ => "ReadError"
  | unwritable _ => "WriteError"
  | invalidPackage _ => "CodeGenError"
  | invalidCode => "CodeGenError"
  | unresolvedConstructor _ => "CodeGenError"
  | noOperations => "ConfigError"
  | packageNotModulePath _ => "ConfigError"
  | notAnIdentifier _ => "Panic"

end ClientSdk
