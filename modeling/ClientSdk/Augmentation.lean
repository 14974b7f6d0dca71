import ClientSdk.Error
import ClientSdk.Text.Plural
import ClientSdk.Schema

/-!
# Augmentation of a Schema

To a schema with user-declared object types, augmentation adds for every such type `T`, with
`t` its name in lowercase,

* an input type `T_Data` with the fields of `T`,
* the mutations `t_insert`, `t_delete` and `t_update`,
* the queries `t` and its plural, with one optional filter argument for each field, and
* for every field of `T` that refers to a single object type `R`, a relation field on `R`
  that leads back to the owners.

It also adds the result markers that the mutations return. The types to augment are fixed
before anything is added, and all relation fields are collected before the first is added, so
nothing synthesized is augmented again. Input types and queries come last and so carry the
relation fields.

## Main definitions

* `Addition`: one declaration that was added.
* `augment`: the augmented schema with the list of changes, or the reason there is none.
-/

namespace ClientSdk

/-! ### Changes -/

/-- One declaration added to a schema. -/
inductive Addition where
  /-- A result marker. -/
  | markerType (name : String)
  /-- A relation field of a type. -/
  | relationField (type field : String)
  /-- An input type. -/
  | inputType (name : String)
  /-- A field of the mutation root. -/
  | mutationField (name : String)
  /-- A field of the query root. -/
  | queryField (name : String)
  deriving DecidableEq, Repr

/-- A change in words. -/
def Addition.describe : Addition → String
  | markerType name => s!"marker scalar {name}"
  | relationField type field => s!"relation field {type}.{field}"
  | inputType name => s!"input type {name}"
  | mutationField name => s!"mutation field {name}"
  | queryField name => s!"query field {name}"

/-- A schema after augmentation, with the changes that led to it, in order. -/
structure Augmentation where
  /-- The augmented schema. -/
  schema : Schema
  /-- Every declaration that was added. -/
  changes : List Addition
  deriving DecidableEq

namespace Augment

/-! ### References -/

/-- The type under the key `name`, or the error that `reference` names no type. -/
def typeNamed (schema : Schema) (name : String) (reference : Reference) :
    Except GenerationError TypeDef :=
  match schema.get? name with
  | some type => .ok type
  | none => .error (.missingType name reference)

/-- The type names that a field of `owner` and its arguments refer to, in order. -/
def fieldReferences (owner : String) (field : FieldDef) : List (String × Reference) :=
  (field.type.leafName, .field owner field.name) ::
    field.arguments.map fun arg =>
      (arg.type.leafName, .argument owner field.name arg.name)

/-- The type names that a definition refers to, in order. -/
def typeReferences (type : TypeDef) : List (String × Reference) :=
  type.fields.flatMap (fieldReferences type.name)

/-- Fails at the first reference of `types` that names no type of the schema. -/
def requireReferences (schema : Schema) (types : List TypeDef) : Except GenerationError Unit :=
  match (types.flatMap typeReferences).find? fun entry => !schema.types.contains entry.1 with
  | some (name, reference) => .error (.missingType name reference)
  | none => .ok ()

/-! ### Result markers -/

/-- Adds the result markers to the types. -/
def addResultScalars (schema : Schema) : Schema :=
  mutationResults.foldl (fun schema name => schema.declare (.givenScalar name)) schema

/-! ### Relation fields -/

/-- The name of the relation field that `referenced` gets for the fields of `owner` that
refer to it: `movies_as_studio` for movies with a studio. -/
def relationName (owner referenced : String) : String :=
  Text.plural (Text.lower owner) ++ "_as_" ++ Text.lower referenced

/-- The relation field that `field` of `owner` gives rise to, with the type that gets it: none
unless the field refers to a single object type that the user declared. -/
def relationOf? (schema : Schema) (owner : TypeDef) (field : FieldDef) :
    Option (String × FieldDef) :=
  if field.type.isList then none
  else
    match schema.get? field.type.leafName with
    | none => none
    | some referenced =>
      if referenced.isUserObject then
        some (referenced.name,
          { name := relationName owner.name referenced.name
            type := .list (.named owner.name false) false })
      else none

/-- The relation fields that the fields of `owners` give rise to, in order. -/
def relations (schema : Schema) (owners : List TypeDef) : List (String × FieldDef) :=
  owners.flatMap fun owner => owner.fields.filterMap (relationOf? schema owner)

/-- Adds one relation field. One that was added before, under the same name to the same type,
is left out; a declared field of that name is a collision. The second component lists what
was added. -/
def addRelation (state : Schema × List (String × String)) (relation : String × FieldDef) :
    Except GenerationError (Schema × List (String × String)) :=
  let (schema, added) := state
  let (type, field) := relation
  if (type, field.name) ∈ added then .ok state
  else do
    let target ← typeNamed schema type .relation
    if target.hasField field.name then
      .error (.namingCollision (.relationField type) field.name)
    else
      .ok ({ schema with types := schema.types.modify type (·.pushField field) },
        added ++ [(type, field.name)])

/-- Adds relation fields one by one. -/
def addRelations (schema : Schema) (relations : List (String × FieldDef)) :
    Except GenerationError (Schema × List (String × String)) :=
  relations.foldlM addRelation (schema, [])

/-! ### Input types -/

/-- The name of the input type of the object type `name`. -/
def inputTypeName (name : String) : String := name ++ "_Data"

/-- A field as the input type has it: input types refer to input types only, so a reference to
one of `objects` becomes a reference to its input type. -/
def inputField (objects : List String) (field : FieldDef) : FieldDef :=
  if field.type.leafName ∈ objects then
    { field with type := field.type.withLeafName (inputTypeName field.type.leafName) }
  else field

/-- The input type of an object type. -/
def inputType (objects : List String) (type : TypeDef) : TypeDef where
  name := inputTypeName type.name
  kind := .input
  fields := type.fields.map (inputField objects)
  builtin := false
  description := type.description

/-- Adds the input type of the object type `name`, read again so that its relation fields are
there. The second component lists the object types that were read. -/
def addInput (objects : List String) (state : Schema × List TypeDef) (name : String) :
    Except GenerationError (Schema × List TypeDef) := do
  let (schema, types) := state
  let type ← typeNamed schema name .inputType
  if schema.types.contains (inputTypeName type.name) then
    .error (.namingCollision .inputType (inputTypeName type.name))
  else
    .ok (schema.declare (inputType objects type), types ++ [type])

/-- Adds the input types of `objects` one by one. -/
def addInputs (schema : Schema) (objects : List String) :
    Except GenerationError (Schema × List TypeDef) :=
  objects.foldlM (addInput objects) (schema, [])

/-! ### Root fields -/

/-- The mutations of an object type. -/
def mutationFields (type : TypeDef) : List FieldDef :=
  let stem := Text.lower type.name
  let data : TypeRef := .named (inputTypeName type.name) true
  let id : ArgumentDef := { name := "id", type := .named "String" true }
  [{ name := stem ++ "_insert"
     type := .named insertResult false
     arguments := [{ name := "data", type := data.nonNull }] },
   { name := stem ++ "_delete"
     type := .named deleteResult true
     arguments := [id] },
   { name := stem ++ "_update"
     type := .named updateResult false
     arguments := [id, { name := "data", type := data }] }]

/-- The filter argument of a field: optional, and a string key where the field refers to
anything but a scalar. -/
def filterArgument (schema : Schema) (field : FieldDef) : ArgumentDef where
  name := field.name
  type :=
    let isLeaf := (schema.get? field.type.leafName).any (·.isScalar)
    (if isLeaf then field.type else field.type.withLeafName "String").withNullable true
  description := field.description

/-- The queries of an object type: for one value and for all values. -/
def queryFields (schema : Schema) (type : TypeDef) : List FieldDef :=
  let stem := Text.lower type.name
  let filters := type.fields.map (filterArgument schema)
  [{ name := stem, type := .named type.name false, arguments := filters },
   { name := Text.plural stem
     type := .list (.named type.name false) false
     arguments := filters }]

/-- Adds a field to a root, which must not have one of that name. -/
def addRootField (root : TypeDef) (field : FieldDef) : Except GenerationError TypeDef :=
  if root.hasField field.name then .error (.namingCollision (.rootField root.name) field.name)
  else .ok (root.pushField field)

/-- Adds fields to a root one by one. -/
def addRootFields (root : TypeDef) (fields : List FieldDef) : Except GenerationError TypeDef :=
  fields.foldlM addRootField root

end Augment

open Augment in
/-- Adds everything that the user-declared object types of a schema call for. A failure leaves
no schema at all. -/
def augment (schema : Schema) : Except GenerationError Augmentation := do
  let owners := schema.userObjects
  requireReferences schema owners
  let marked := addResultScalars schema
  let (related, added) ← addRelations marked (relations marked owners)
  let (extended, types) ← addInputs related (owners.map (·.name))
  let mutations := types.flatMap mutationFields
  let queries := types.flatMap (queryFields extended)
  let mutation ← addRootFields extended.mutation mutations
  let query ← addRootFields extended.query queries
  return {
    schema := { extended with query := query, mutation := mutation }
    changes :=
      mutationResults.map .markerType ++
      added.map (fun entry => .relationField entry.1 entry.2) ++
      types.map (fun type => .inputType (inputTypeName type.name)) ++
      mutations.map (fun field => .mutationField field.name) ++
      queries.map (fun field => .queryField field.name) }

end ClientSdk
