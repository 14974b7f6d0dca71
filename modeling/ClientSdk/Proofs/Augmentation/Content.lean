import ClientSdk.Proofs.Augmentation.Relations
import ClientSdk.Proofs.TypeRef

/-!
# What Augmentation Synthesizes

Input types and queries are made from the object types as they are with all their relation
fields, while the schema still grows. This module says what they are in terms of the schema that
was given and of the object types at the end.

## Main definitions

* `Augment.IsInputOf`: an input type is made from an object type.
* `Augment.IsFilterOf`: a filter argument is made from a field.
* `Augment.Synthesizes`: everything that is made from the object types of a schema.

## Main results

* `augment_synthesizes`: augmentation makes all of this, and nothing else in the roots.
-/

namespace ClientSdk

namespace Augment

variable {schema : Schema}

/-! ### Input types -/

/-- A field of an input type is made from a field of an object type: where that one refers to a
user-declared object type, this one refers to its input type. -/
structure IsInputFieldOf (schema : Schema) (field copy : FieldDef) : Prop where
  /-- The name is the same. -/
  name_eq : copy.name = field.name
  /-- The arguments are the same. -/
  arguments_eq : copy.arguments = field.arguments
  /-- The description is the same. -/
  description_eq : copy.description = field.description
  /-- Lists and nulls are at the same levels. -/
  levels_eq : copy.type.levels = field.type.levels
  /-- The name at the bottom is replaced when it is that of a user-declared object type. -/
  leafName_eq : copy.type.leafName =
    if field.type.leafName ∈ schema.userObjects.map (·.name) then field.type.leafName ++ "_Data"
    else field.type.leafName

/-- The type `input` is made from the object type `type`, field by field. -/
structure IsInputOf (schema : Schema) (type input : TypeDef) : Prop where
  /-- The name is that of the object type with the suffix. -/
  name_eq : input.name = type.name ++ "_Data"
  /-- It is an input type. -/
  kind_eq : input.kind = .input
  /-- It counts as declared by the user. -/
  builtin_eq : input.builtin = false
  /-- The description is that of the object type. -/
  description_eq : input.description = type.description
  /-- The fields are made from those of the object type, in order. -/
  fields : List.Forall₂ (IsInputFieldOf schema) type.fields input.fields

/-- Only the type of a field is changed for the input type. -/
theorem isInputFieldOf_inputField (field : FieldDef) :
    IsInputFieldOf schema field (inputField (schema.userObjects.map (·.name)) field) := by
  rw [inputField]
  split
  · rename_i hobject
    refine ⟨rfl, rfl, rfl, TypeRef.levels_withLeafName _ _, ?_⟩
    rw [if_pos hobject]
    exact TypeRef.leafName_withLeafName _ _
  · rename_i hother
    exact ⟨rfl, rfl, rfl, rfl, (if_neg hother).symm⟩

/-- An input type is made from its object type. -/
theorem isInputOf_inputType (type : TypeDef) :
    IsInputOf schema type (inputType (schema.userObjects.map (·.name)) type) := by
  refine ⟨rfl, rfl, rfl, rfl, List.forall₂_map_right_iff.mpr (List.forall₂_same.mpr ?_)⟩
  exact fun field _ => isInputFieldOf_inputField field

/-! ### Filters -/

/-- An argument of a query is made from a field of an object type: it may be left out, and is a
string where the field has anything but a scalar. -/
structure IsFilterOf (schema : Schema) (field : FieldDef) (arg : ArgumentDef) : Prop where
  /-- The name is that of the field. -/
  name_eq : arg.name = field.name
  /-- The description is that of the field. -/
  description_eq : arg.description = field.description
  /-- Null is allowed at the outermost level, and the other levels are the same. -/
  levels_eq : arg.type.levels = true :: field.type.levels.tail
  /-- The name at the bottom is replaced unless it is that of a scalar. -/
  leafName_eq : ∃ leaf, schema.get? field.type.leafName = some leaf ∧
    arg.type.leafName = if leaf.isScalar then field.type.leafName else "String"

/-- Where a field refers to a type, its filter argument is made from it. -/
theorem isFilterOf_filterArgument {field : FieldDef} {leaf : TypeDef}
    (hget : schema.get? field.type.leafName = some leaf) :
    IsFilterOf schema field (filterArgument schema field) := by
  have htype : (filterArgument schema field).type =
      (if leaf.isScalar then field.type else field.type.withLeafName "String").withNullable
        true := by
    rw [filterArgument, hget]
    rfl
  refine ⟨rfl, rfl, ?_, leaf, hget, ?_⟩
  · rw [htype, TypeRef.levels_withNullable]
    cases leaf.isScalar with
    | true => rfl
    | false => exact congrArg (true :: List.tail ·) (TypeRef.levels_withLeafName _ _)
  · rw [htype, TypeRef.leafName_withNullable]
    cases leaf.isScalar with
    | true => rfl
    | false => exact TypeRef.leafName_withLeafName _ _

/-! ### The result -/

namespace Appended

variable {result : Augmentation} {added : List (String × FieldDef)} {types : List TypeDef}

/-- What the fields of an object type refer to after augmentation was there before. -/
theorem exists_get?_leafName (h : Appended schema result added types) (hkeyed : schema.Keyed)
    (hfree : ∀ name ∈ mutationResults, name ∉ schema.types.keys) (hresolved : Resolved schema)
    {type : TypeDef} (htype : type ∈ schema.userObjects) :
    ∀ field ∈ (type.pushFields (TypeMap.addedTo added type.name)).fields,
      ∃ leaf, schema.get? field.type.leafName = some leaf := by
  intro field hfield
  rcases List.mem_append.mp hfield with hdeclared | hrelation
  · exact Option.isSome_iff_exists.mp
      (TypeMap.contains_iff.mpr (hresolved type htype field hdeclared).1)
  · rw [TypeMap.mem_addedTo_iff] at hrelation
    obtain ⟨owner, howner, referenced, -, -, heq⟩ :=
      (mem_relations_iff hkeyed hfree).mp (h.relations.sublist.subset hrelation)
    obtain ⟨-, rfl⟩ := Prod.mk.inj heq
    exact ⟨owner, get?_of_mem_userObjects hkeyed howner⟩

/-- The queries of an object type are the same whether they are made in the schema that was given
or in the one that has been augmented. -/
theorem queryFields_eq (h : Appended schema result added types) (hkeyed : schema.Keyed)
    (hfree : ∀ name ∈ mutationResults, name ∉ schema.types.keys) (hresolved : Resolved schema)
    {type : TypeDef} (htype : type ∈ schema.userObjects) :
    queryFields result.schema (type.pushFields (TypeMap.addedTo added type.name)) =
      queryFields schema (type.pushFields (TypeMap.addedTo added type.name)) := by
  have hfilters : ∀ field ∈ (type.pushFields (TypeMap.addedTo added type.name)).fields,
      filterArgument result.schema field = filterArgument schema field := by
    intro field hfield
    obtain ⟨leaf, hget⟩ := h.exists_get?_leafName hkeyed hfree hresolved htype field hfield
    rw [filterArgument, filterArgument, h.get?_eq hget, hget]
    rfl
  rw [queryFields, queryFields, List.map_congr_left hfilters]

/-- The queries come after the fields of their root, and are those of the object types with their
relation fields. -/
theorem query_eq_pushFields (h : Appended schema result added types) (hkeyed : schema.Keyed)
    (hfree : ∀ name ∈ mutationResults, name ∉ schema.types.keys) (hresolved : Resolved schema) :
    result.schema.query = schema.query.pushFields (schema.userObjects.flatMap fun type =>
      queryFields schema (type.pushFields (TypeMap.addedTo added type.name))) := by
  rw [h.query_eq, h.types_eq, List.flatMap_map]
  exact congrArg _ (List.flatMap_congr fun type htype =>
    h.queryFields_eq hkeyed hfree hresolved htype)

/-- The mutations come after the fields of their root, and are those of the object types. -/
theorem mutation_eq_pushFields (h : Appended schema result added types) :
    result.schema.mutation =
      schema.mutation.pushFields (schema.userObjects.flatMap mutationFields) := by
  rw [h.mutation_eq, h.types_eq, List.flatMap_map]
  rfl

/-- The input type of an object type stands under its name. -/
theorem get?_inputTypeName (h : Appended schema result added types) {type : TypeDef}
    (htype : type ∈ schema.userObjects) :
    result.schema.get? (inputTypeName type.name) =
      some (inputType (schema.userObjects.map (·.name))
        (type.pushFields (TypeMap.addedTo added type.name))) := by
  rw [Schema.get?, TypeMap.get?_eq_some_iff, h.entries_eq, h.types_eq]
  refine List.mem_append_right _ (List.mem_append_right _ ?_)
  rw [inputEntries, List.map_map]
  exact List.mem_map.mpr ⟨type, htype, rfl⟩

end Appended

/-- Everything that is made from the object types of `schema` is in `result`: each object type has
become `final`, and its queries take `filters`. -/
structure Synthesizes (schema result : Schema) (final : TypeDef → TypeDef)
    (filters : TypeDef → List ArgumentDef) : Prop where
  /-- An object type has its own fields, and then a relation field for each type that refers to
  it. -/
  object : ∀ type ∈ schema.userObjects, result.get? type.name = some (final type) ∧
    ∃ relations, final type = type.pushFields relations ∧
      ∀ field, field ∈ relations ↔ ∃ owner ∈ schema.userObjects, owner.RefersTo type.name ∧
        field = relationField owner.name type.name
  /-- Its input type is made from all these fields. -/
  input : ∀ type ∈ schema.userObjects, ∃ input,
    result.get? (type.name ++ "_Data") = some input ∧ IsInputOf schema (final type) input
  /-- There is a filter for each of these fields. -/
  filter : ∀ type ∈ schema.userObjects,
    List.Forall₂ (IsFilterOf schema) (final type).fields (filters type)
  /-- There are three mutations for each object type, and no other ones are new. -/
  mutation_eq : result.mutation.fields = schema.mutation.fields ++
    schema.userObjects.flatMap fun type =>
      [{ name := Text.lower type.name ++ "_insert"
         type := .named insertResult false
         arguments := [{ name := "data", type := .named (type.name ++ "_Data") false }] },
       { name := Text.lower type.name ++ "_delete"
         type := .named deleteResult true
         arguments := [{ name := "id", type := .named "String" true }] },
       { name := Text.lower type.name ++ "_update"
         type := .named updateResult false
         arguments := [{ name := "id", type := .named "String" true },
           { name := "data", type := .named (type.name ++ "_Data") true }] }]
  /-- There are two queries for each object type, and no other ones are new. -/
  query_eq : result.query.fields = schema.query.fields ++
    schema.userObjects.flatMap fun type =>
      [{ name := Text.lower type.name
         type := .named type.name false
         arguments := filters type },
       { name := Text.plural (Text.lower type.name)
         type := .list (.named type.name false) false
         arguments := filters type }]

end Augment

open Augment in
/-- **What augmentation synthesizes.** In a keyed schema in which the names of the markers are
free, augmentation makes an input type, three mutations and two queries from each user-declared
object type as it is at the end, with all its relation fields, and no other root fields. -/
theorem augment_synthesizes {schema : Schema} {result : Augmentation} (hkeyed : schema.Keyed)
    (hfree : ∀ name ∈ mutationResults, name ∉ schema.types.keys)
    (h : augment schema = .ok result) :
    ∃ final filters, Synthesizes schema result.schema final filters := by
  obtain ⟨hresolved, hcollision⟩ := resolved_and_collisionFree hkeyed hfree h
  obtain ⟨added, types, happended⟩ := exists_appended hkeyed hfree h
  refine ⟨fun type => type.pushFields (TypeMap.addedTo added type.name),
    fun type => (type.pushFields (TypeMap.addedTo added type.name)).fields.map
      (filterArgument schema),
    { object := fun type htype =>
        ⟨happended.get?_eq (get?_of_mem_userObjects hkeyed htype), _, rfl, fun field =>
          mem_addedTo_name_iff hkeyed hfree happended.relations hcollision htype⟩
      input := fun type htype =>
        ⟨_, happended.get?_inputTypeName htype, isInputOf_inputType _⟩
      filter := fun type htype => ?_
      mutation_eq := ?_
      query_eq := ?_ }⟩
  · refine List.forall₂_map_right_iff.mpr (List.forall₂_same.mpr fun field hfield => ?_)
    obtain ⟨leaf, hget⟩ := happended.exists_get?_leafName hkeyed hfree hresolved htype field hfield
    exact isFilterOf_filterArgument hget
  · rw [happended.mutation_eq_pushFields]
    rfl
  · rw [happended.query_eq_pushFields hkeyed hfree hresolved]
    rfl

open Augment in
/-- A type that refers to itself has a relation to itself in its input type and its filters, and
lists stay lists there. -/
theorem augment_synthesizes_town :
    townSchema.Keyed ∧ (∀ name ∈ mutationResults, name ∉ townSchema.types.keys) ∧
    ∃ result, augment townSchema = .ok result ∧
      (result.schema.get? "Person_Data").map (fun input =>
        input.fields.map fun field => (field.name, field.type)) =
          some [("friend", .named "Person_Data" true), ("home", .named "City_Data" false),
            ("birthplace", .named "City_Data" true),
            ("visited", .list (.named "City_Data" false) true),
            ("people_as_person", .list (.named "Person_Data" false) false)] ∧
      (result.schema.query.field? "dogs").map (fun query =>
        query.arguments.map fun arg => (arg.name, arg.type)) =
          some [("home", .named "String" true), ("sizes", .list (.named "Size" true) true),
            ("range", .named "String" true)] ∧
      ∃ final filters, Synthesizes townSchema result.schema final filters := by
  have hkeyed : townSchema.Keyed := by decide
  have hfree : ∀ name ∈ mutationResults, name ∉ townSchema.types.keys := by decide
  obtain ⟨result, h, hinput, hfilters⟩ : ∃ result, augment townSchema = .ok result ∧
      (result.schema.get? "Person_Data").map (fun input =>
        input.fields.map fun field => (field.name, field.type)) =
          some [("friend", .named "Person_Data" true), ("home", .named "City_Data" false),
            ("birthplace", .named "City_Data" true),
            ("visited", .list (.named "City_Data" false) true),
            ("people_as_person", .list (.named "Person_Data" false) false)] ∧
      (result.schema.query.field? "dogs").map (fun query =>
        query.arguments.map fun arg => (arg.name, arg.type)) =
          some [("home", .named "String" true), ("sizes", .list (.named "Size" true) true),
            ("range", .named "String" true)] := ⟨_, rfl, rfl, rfl⟩
  exact ⟨hkeyed, hfree, result, h, hinput, hfilters, augment_synthesizes hkeyed hfree h⟩

end ClientSdk
