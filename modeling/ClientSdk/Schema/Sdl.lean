import ClientSdk.Schema

/-!
# Schema Text

A schema written as a document: the declaration of its roots, its types in order, the root types,
and the directive that restricts the fields of a variable. A root of mutations without fields is
left out, and so are the built-in scalars. Arguments are written without their documentation.

## Main definitions

* `Schema.sdl`: the text of a schema.
-/

namespace ClientSdk

/-- The declaration of the directive that restricts the fields of a variable. -/
def pickDeclaration : String := "directive @pick(fields: [String!]) on VARIABLE_DEFINITION"

/-- A type with the name that it has in schema text. -/
def TypeRef.withNameInSdl (type : TypeRef) : TypeRef := type.withLeafName (nameInSdl type.leafName)

/-- A character of a documentation text inside quotes. -/
def sdlChar (c : Char) : List Char :=
  if c = '"' then ['\\', '"']
  else if c = '\\' then ['\\', '\\']
  else if c = '\n' then ['\\', 'n']
  else [c]

/-- A documentation text on a line of its own, if there is one. -/
def descriptionSdl (indent : String) : Option String → String
  | none => ""
  | some text =>
    indent ++ "\"" ++ String.ofList (text.toList.flatMap sdlChar) ++ "\"\n"

/-- An argument of a field. -/
def ArgumentDef.sdl (arg : ArgumentDef) : String := arg.name ++ ": " ++ arg.type.withNameInSdl.sdl

/-- The arguments of a field in parentheses, if there are any. -/
def argumentsSdl (arguments : List ArgumentDef) : String :=
  if arguments.isEmpty then "" else "(" ++ ", ".intercalate (arguments.map (·.sdl)) ++ ")"

/-- A field on a line of its own, with its documentation on the line before. -/
def FieldDef.sdl (field : FieldDef) : String :=
  descriptionSdl "  " field.description ++
    "  " ++ field.name ++ argumentsSdl field.arguments ++ ": " ++
      field.type.withNameInSdl.sdl ++ "\n"

/-- The fields of a type between braces. -/
def fieldsSdl (fields : List FieldDef) : String :=
  "\x7b\n" ++ String.join (fields.map (·.sdl)) ++ "\x7d\n"

/-- The declaration of a type. -/
def TypeDef.sdl (type : TypeDef) : String :=
  descriptionSdl "" type.description ++
    match type.kind with
    | .scalar => "scalar " ++ nameInSdl type.name ++ "\n"
    | .object => "type " ++ nameInSdl type.name ++ " " ++ fieldsSdl type.fields
    | .input => "input " ++ nameInSdl type.name ++ " " ++ fieldsSdl type.fields

namespace Schema

/-- The schema has mutations. -/
def hasMutations (schema : Schema) : Bool := !schema.mutation.fields.isEmpty

/-- The types that schema text declares, in order: all but the built-in scalars, then the roots;
the root of mutations only where there are any. -/
def declaredTypes (schema : Schema) : List TypeDef :=
  (schema.types.values.filter fun type => !(type.isScalar && isStandardScalar type.name)) ++
    schema.query :: (if schema.hasMutations then [schema.mutation] else [])

/-- The declaration of the roots. -/
def rootsSdl (schema : Schema) : String :=
  "schema \x7b\n  query: " ++ schema.query.name ++ "\n" ++
    (if schema.hasMutations then "  mutation: " ++ schema.mutation.name ++ "\n" else "") ++
    "\x7d\n"

/-- The schema as a document. -/
def sdl (schema : Schema) : String :=
  schema.rootsSdl ++ String.join (schema.declaredTypes.map fun type => "\n" ++ type.sdl) ++
    "\n" ++ pickDeclaration ++ "\n"

end Schema

end ClientSdk
