import ClientSdk.Proofs.Augmentation.Order

/-!
# Augmentation Keeps Schemas Well Formed

Each pass adds references of another sort: relation fields lead to object types, the fields of
input types to input types, mutations to markers, and filters to scalars. This module shows that
all of them name types of the right kind, and that no field and no argument is added twice.

## Main definitions

* `Schema.LeadsTo`: a reference names a scalar, or a type of one other kind.
* `Schema.WellFormed`: what a schema has to satisfy before and after augmentation.

## Main results

* `Augment.Appended.mem_values`: the types that a schema has after augmentation.
* `Augment.Appended.fits_of_mem_declarations`: what every field and its arguments refer to.
* `augment_wellFormed`: a well-formed schema that can be augmented stays well formed.
-/

namespace ClientSdk

/-! ### Well-formed schemas -/

namespace Schema

/-- The type at the bottom of the reference is a type of the schema, and it is a scalar or of the
given kind. -/
def LeadsTo (schema : Schema) (reference : TypeRef) (kind : TypeKind) : Prop :=
  ∃ leaf ∈ schema.get? reference.leafName, leaf.kind = .scalar ∨ leaf.kind = kind

instance (schema : Schema) (reference : TypeRef) (kind : TypeKind) :
    Decidable (schema.LeadsTo reference kind) :=
  inferInstanceAs (Decidable (∃ leaf ∈ schema.get? _, _))

/-- References, names and kinds of a schema fit together. -/
@[mk_iff]
structure WellFormed (schema : Schema) : Prop where
  /-- Every type stands under its own name. -/
  keyed : schema.Keyed
  /-- The scalars that every schema has are there, and they are scalars. -/
  standard : ∀ name ∈ standardScalars, ∃ type ∈ schema.get? name, type.kind = .scalar
  /-- A type that the user has not declared is a scalar. -/
  builtin : ∀ type ∈ schema.types.values, type.builtin = true → type.kind = .scalar
  /-- Neither a type nor a root declares a field twice. -/
  distinctFields : schema.DistinctFields
  /-- No field takes two arguments of one name. -/
  distinctArguments : ∀ type ∈ schema.declarations, ∀ field ∈ type.fields,
    (field.arguments.map (·.name)).Nodup
  /-- What a field or an argument refers to is a type of the schema. -/
  resolved : ∀ type ∈ schema.declarations, ∀ field ∈ type.fields,
    field.type.leafName ∈ schema.types.keys ∧
      ∀ arg ∈ field.arguments, arg.type.leafName ∈ schema.types.keys
  /-- The fields of the roots are scalars or object types. -/
  roots : ∀ root ∈ [schema.query, schema.mutation], ∀ field ∈ root.fields,
    schema.LeadsTo field.type .object
  /-- The fields of object types are scalars or object types. -/
  objects : ∀ type ∈ schema.types.values, type.kind = .object → ∀ field ∈ type.fields,
    schema.LeadsTo field.type .object
  /-- The fields of input types are scalars or input types. -/
  inputs : ∀ type ∈ schema.types.values, type.kind = .input → ∀ field ∈ type.fields,
    schema.LeadsTo field.type .input
  /-- Arguments are scalars or input types. -/
  arguments : ∀ type ∈ schema.declarations, ∀ field ∈ type.fields, ∀ arg ∈ field.arguments,
    schema.LeadsTo arg.type .input

instance (schema : Schema) : Decidable schema.WellFormed :=
  decidable_of_iff' _ (wellFormed_iff schema)

/-- What a reference leads to is a type of the schema. -/
theorem LeadsTo.mem_keys {schema : Schema} {reference : TypeRef} {kind : TypeKind}
    (h : schema.LeadsTo reference kind) : reference.leafName ∈ schema.types.keys := by
  obtain ⟨leaf, hget, -⟩ := h
  exact TypeMap.contains_iff.mp (Option.isSome_iff_exists.mpr ⟨leaf, hget⟩)

end Schema

/-- A type can get fields of distinct names that it does not declare. -/
theorem TypeDef.DistinctFields.pushFields {type : TypeDef} (h : type.DistinctFields)
    {fields : List FieldDef} (hnodup : (fields.map (·.name)).Nodup)
    (hnew : ∀ field ∈ fields, type.hasField field.name = false) :
    (type.pushFields fields).DistinctFields := by
  rw [TypeDef.DistinctFields, TypeDef.pushFields, List.map_append]
  refine h.append hnodup fun name hold hadded => ?_
  obtain ⟨field, hfield, rfl⟩ := List.mem_map.mp hadded
  exact Bool.false_ne_true ((hnew field hfield).symm.trans (hasField_iff.mpr hold))

namespace Augment

variable {schema : Schema}

/-! ### Fields and their arguments -/

/-- What a field and its arguments refer to is there, and its arguments have distinct names and
are scalars or input types. -/
structure Fits (schema : Schema) (field : FieldDef) : Prop where
  /-- The field refers to a type of the schema. -/
  mem_keys : field.type.leafName ∈ schema.types.keys
  /-- No two arguments have one name. -/
  nodup : (field.arguments.map (·.name)).Nodup
  /-- The arguments are scalars or input types. -/
  arguments : ∀ arg ∈ field.arguments, schema.LeadsTo arg.type .input

/-- The fields of a well-formed schema and their arguments refer to what is there. -/
theorem fits_of_wellFormed (h : schema.WellFormed) {type : TypeDef}
    (htype : type ∈ schema.declarations) {field : FieldDef} (hfield : field ∈ type.fields) :
    Fits schema field :=
  ⟨(h.resolved type htype field hfield).1, h.distinctArguments type htype field hfield,
    h.arguments type htype field hfield⟩

/-- The types for which declarations are synthesized are object types. -/
theorem kind_of_mem_userObjects {object : TypeDef} (h : object ∈ schema.userObjects) :
    object.kind = .object := by
  have huser := (mem_userObjects_iff.mp h).2
  rw [TypeDef.isUserObject, Bool.and_eq_true, beq_iff_eq] at huser
  exact huser.2

/-- What the object types of a well-formed schema refer to exists. -/
theorem resolved_of_wellFormed (h : schema.WellFormed) : Resolved schema := fun type htype =>
  h.resolved type (List.mem_append_right [schema.query, schema.mutation]
    (mem_userObjects_iff.mp htype).1)

namespace Appended

variable {result : Augmentation} {added : List (String × FieldDef)} {types : List TypeDef}

/-! ### Types after augmentation -/

/-- The types after augmentation, in order. -/
theorem values_eq (h : Appended schema result added types) (hkeyed : schema.Keyed) :
    result.schema.types.values =
      schema.types.values.map (fun old => old.pushFields (TypeMap.addedTo added old.name)) ++
        (mutationResults.map TypeDef.givenScalar ++ schema.userObjects.map fun object =>
          inputType (schema.userObjects.map (·.name))
            (object.pushFields (TypeMap.addedTo added object.name))) := by
  have hold : (schema.types.withFields added).entries.map Prod.snd =
      schema.types.values.map fun old => old.pushFields (TypeMap.addedTo added old.name) := by
    rw [TypeMap.values, TypeMap.withFields, List.map_map, List.map_map]
    refine List.map_congr_left fun entry hentry => ?_
    rw [Function.comp_apply, Function.comp_apply, hkeyed entry hentry]
  have hinput : (inputEntries (schema.userObjects.map (·.name)) types).map Prod.snd =
      schema.userObjects.map fun object => inputType (schema.userObjects.map (·.name))
        (object.pushFields (TypeMap.addedTo added object.name)) := by
    rw [h.types_eq, inputEntries, List.map_map, List.map_map]
    rfl
  rw [TypeMap.values, h.entries_eq, List.map_append, List.map_append, hold, hinput]
  rfl

/-- **The types after augmentation** are those of the schema with their relation fields, the
markers and the input types. -/
theorem mem_values (h : Appended schema result added types) (hkeyed : schema.Keyed)
    {type : TypeDef} (htype : type ∈ result.schema.types.values) :
    (∃ old ∈ schema.types.values,
        type = old.pushFields (TypeMap.addedTo added old.name)) ∨
      (∃ name ∈ mutationResults, type = .givenScalar name) ∨
      ∃ object ∈ schema.userObjects, type = inputType (schema.userObjects.map (·.name))
        (object.pushFields (TypeMap.addedTo added object.name)) := by
  rw [h.values_eq hkeyed] at htype
  simpa only [List.mem_append, List.mem_map, eq_comm] using htype

/-- A relation field leads from a user-declared object type to another one. -/
theorem exists_owner_of_mem_addedTo (h : Appended schema result added types)
    (hkeyed : schema.Keyed) (hfree : ∀ name ∈ mutationResults, name ∉ schema.types.keys)
    {key : String} {field : FieldDef} (hfield : field ∈ TypeMap.addedTo added key) :
    key ∈ schema.userObjects.map (·.name) ∧
      ∃ owner ∈ schema.userObjects, field = relationField owner.name key := by
  rw [TypeMap.mem_addedTo_iff] at hfield
  obtain ⟨owner, howner, referenced, hreferenced, -, heq⟩ :=
    (mem_relations_iff hkeyed hfree).mp (h.relations.sublist.subset hfield)
  obtain ⟨rfl, rfl⟩ := Prod.mk.inj heq
  exact ⟨List.mem_map_of_mem hreferenced, owner, howner, rfl⟩

/-- Only object types get relation fields. -/
theorem mem_userObjects_of_mem_addedTo (h : Appended schema result added types)
    (hkeyed : schema.Keyed) (hfree : ∀ name ∈ mutationResults, name ∉ schema.types.keys)
    {old : TypeDef} (hold : old ∈ schema.types.values) {field : FieldDef}
    (hfield : field ∈ TypeMap.addedTo added old.name) : old ∈ schema.userObjects := by
  obtain ⟨hname, -⟩ := h.exists_owner_of_mem_addedTo hkeyed hfree hfield
  obtain ⟨object, hobject, hname⟩ := List.mem_map.mp hname
  obtain rfl := hkeyed.eq_of_name_eq (get?_of_mem_userObjects hkeyed hobject)
    (hkeyed.get?_of_mem_values hold) hname
  exact hobject

/-- What a reference led to before, it leads to after augmentation. -/
theorem leadsTo (h : Appended schema result added types) {reference : TypeRef} {kind : TypeKind}
    (hleads : schema.LeadsTo reference kind) : result.schema.LeadsTo reference kind := by
  obtain ⟨leaf, hget, hkind⟩ := hleads
  exact ⟨_, h.get?_eq hget, hkind⟩

/-- The names of the types are still names of types. -/
theorem mem_keys (h : Appended schema result added types) {name : String}
    (hname : name ∈ schema.types.keys) : name ∈ result.schema.types.keys := by
  rw [h.keys_eq, List.append_assoc]
  exact List.mem_append_left _ hname

/-- What has fitted before, fits after augmentation. -/
theorem fits (h : Appended schema result added types) {field : FieldDef}
    (hfits : Fits schema field) : Fits result.schema field :=
  ⟨h.mem_keys hfits.mem_keys, hfits.nodup, fun arg harg => h.leadsTo (hfits.arguments arg harg)⟩

/-- A marker is a scalar. -/
theorem leadsTo_marker (h : Appended schema result added types) {name : String}
    (hname : name ∈ mutationResults) (nullable : Bool) (kind : TypeKind) :
    result.schema.LeadsTo (.named name nullable) kind :=
  ⟨_, h.get?_marker hname, Or.inl rfl⟩

/-- A user-declared object type is an object type. -/
theorem leadsTo_object (h : Appended schema result added types) (hkeyed : schema.Keyed)
    {object : TypeDef} (hobject : object ∈ schema.userObjects) {reference : TypeRef}
    (hleaf : reference.leafName = object.name) : result.schema.LeadsTo reference .object := by
  have hkind := kind_of_mem_userObjects hobject
  refine ⟨object.pushFields (TypeMap.addedTo added object.name), ?_, Or.inr hkind⟩
  rw [hleaf]
  exact h.get?_eq (get?_of_mem_userObjects hkeyed hobject)

/-- The input type of an object type is an input type. -/
theorem leadsTo_input (h : Appended schema result added types) {object : TypeDef}
    (hobject : object ∈ schema.userObjects) {reference : TypeRef}
    (hleaf : reference.leafName = inputTypeName object.name) :
    result.schema.LeadsTo reference .input := by
  have hget := h.get?_inputTypeName hobject
  rw [← hleaf] at hget
  exact ⟨_, hget, Or.inr rfl⟩

/-- A string is a scalar. -/
theorem leadsTo_string (h : Appended schema result added types) (hwf : schema.WellFormed)
    {reference : TypeRef} (hleaf : reference.leafName = "String") (kind : TypeKind) :
    result.schema.LeadsTo reference kind := by
  obtain ⟨type, hget, hscalar⟩ := hwf.standard "String" (by decide)
  refine h.leadsTo ⟨type, ?_, Or.inl hscalar⟩
  rw [hleaf]
  exact hget

/-! ### What is synthesized -/

section

variable (h : Appended schema result added types) (hwf : schema.WellFormed)
  (hfree : ∀ name ∈ mutationResults, name ∉ schema.types.keys) {object : TypeDef}
  (hobject : object ∈ schema.userObjects)

include h hwf hfree hobject

/-- The fields of an object type, its relation fields included, are scalars or object types that
the user has declared. -/
theorem exists_leaf {field : FieldDef}
    (hfield : field ∈ (object.pushFields (TypeMap.addedTo added object.name)).fields) :
    ∃ leaf, schema.get? field.type.leafName = some leaf ∧
      (leaf.kind = .scalar ∨ leaf ∈ schema.userObjects) := by
  rcases List.mem_append.mp hfield with hdeclared | hrelation
  · obtain ⟨leaf, hget, hkind⟩ := hwf.objects object (mem_userObjects_iff.mp hobject).1
      (kind_of_mem_userObjects hobject) field hdeclared
    refine ⟨leaf, hget, hkind.imp_right fun hobjectKind => ?_⟩
    have hvalue := Schema.mem_values_of_get? hget
    refine mem_userObjects_iff.mpr ⟨hvalue, ?_⟩
    -- A built-in type is a scalar, so an object type is the user's.
    cases hbuiltin : leaf.builtin with
    | true => cases hobjectKind.symm.trans (hwf.builtin leaf hvalue hbuiltin)
    | false => rw [TypeDef.isUserObject, hbuiltin, hobjectKind]; rfl
  · obtain ⟨-, owner, howner, rfl⟩ := h.exists_owner_of_mem_addedTo hwf.keyed hfree hrelation
    exact ⟨owner, get?_of_mem_userObjects hwf.keyed howner, Or.inr howner⟩

omit hfree in
/-- A relation field refers to its owner, which is there, and takes no arguments. -/
theorem fits_relationField (key : String) :
    Fits result.schema (relationField object.name key) :=
  ⟨(h.leadsTo_object hwf.keyed hobject rfl).mem_keys, List.nodup_nil,
    fun _ harg => absurd harg List.not_mem_nil⟩

/-- The fields of an object type and their arguments still refer to what is there. -/
theorem fits_objectField {field : FieldDef}
    (hfield : field ∈ (object.pushFields (TypeMap.addedTo added object.name)).fields) :
    Fits result.schema field := by
  rcases List.mem_append.mp hfield with hdeclared | hrelation
  · have hmem : object ∈ schema.declarations :=
      List.mem_append_right [schema.query, schema.mutation] (mem_userObjects_iff.mp hobject).1
    exact h.fits (fits_of_wellFormed hwf hmem hdeclared)
  · obtain ⟨-, owner, howner, rfl⟩ := h.exists_owner_of_mem_addedTo hwf.keyed hfree hrelation
    exact h.fits_relationField hwf howner _

/-- The fields of an input type are scalars or input types. -/
theorem leadsTo_inputField {field : FieldDef}
    (hfield : field ∈ (object.pushFields (TypeMap.addedTo added object.name)).fields) :
    result.schema.LeadsTo (inputField (schema.userObjects.map (·.name)) field).type .input := by
  have hleaf := (@isInputFieldOf_inputField schema field).leafName_eq
  obtain ⟨leaf, hget, hkind⟩ := h.exists_leaf hwf hfree hobject hfield
  split at hleaf
  · rename_i hname
    obtain ⟨other, hother, hname⟩ := List.mem_map.mp hname
    exact h.leadsTo_input hother (hname ▸ hleaf)
  · rename_i hname
    have hscalar := hkind.resolve_right fun huser =>
      hname (List.mem_map.mpr ⟨leaf, huser, hwf.keyed.name_eq hget⟩)
    refine h.leadsTo ⟨leaf, ?_, Or.inl hscalar⟩
    rw [hleaf]
    exact hget

/-- The fields of an input type keep the arguments of the object type, and refer to what is
there. -/
theorem fits_inputField {field : FieldDef}
    (hfield : field ∈ (object.pushFields (TypeMap.addedTo added object.name)).fields) :
    Fits result.schema (inputField (schema.userObjects.map (·.name)) field) := by
  have harguments := (@isInputFieldOf_inputField schema field).arguments_eq
  have hfits := h.fits_objectField hwf hfree hobject hfield
  exact ⟨(h.leadsTo_inputField hwf hfree hobject hfield).mem_keys, harguments ▸ hfits.nodup,
    harguments ▸ hfits.arguments⟩

/-- A filter is a scalar. -/
theorem leadsTo_filterArgument {field : FieldDef}
    (hfield : field ∈ (object.pushFields (TypeMap.addedTo added object.name)).fields) :
    result.schema.LeadsTo (filterArgument schema field).type .input := by
  obtain ⟨leaf, hget, -⟩ := h.exists_leaf hwf hfree hobject hfield
  obtain ⟨leaf, hget, hleaf⟩ := (isFilterOf_filterArgument hget).leafName_eq
  split at hleaf
  · rename_i hscalar
    refine h.leadsTo ⟨leaf, ?_, Or.inl (beq_iff_eq.mp hscalar)⟩
    rw [hleaf]
    exact hget
  · exact h.leadsTo_string hwf hleaf _

omit hfree in
/-- The mutations of an object type return markers, and take strings and its input type. -/
theorem leadsTo_mutationField {field : FieldDef} (hfield : field ∈ mutationFields object) :
    result.schema.LeadsTo field.type .object ∧ Fits result.schema field := by
  have hdata : ∀ nullable, result.schema.LeadsTo (.named (inputTypeName object.name) nullable)
      .input := fun _ => h.leadsTo_input hobject rfl
  have hid : result.schema.LeadsTo (.named "String" true) .input := h.leadsTo_string hwf rfl _
  have hmarkers : insertResult ∈ mutationResults ∧ deleteResult ∈ mutationResults ∧
      updateResult ∈ mutationResults := by decide
  rw [mutationFields] at hfield
  simp only [List.mem_cons, List.not_mem_nil, or_false] at hfield
  rcases hfield with rfl | rfl | rfl
  · have hleads := h.leadsTo_marker hmarkers.1 false .object
    exact ⟨hleads, hleads.mem_keys, by simp, List.forall_mem_singleton.mpr (hdata false)⟩
  · have hleads := h.leadsTo_marker hmarkers.2.1 true .object
    exact ⟨hleads, hleads.mem_keys, by simp, by simpa using hid⟩
  · have hleads := h.leadsTo_marker hmarkers.2.2 false .object
    exact ⟨hleads, hleads.mem_keys, by simp, by simpa using ⟨hid, hdata true⟩⟩

/-- The queries of an object type return it, and take a filter for each of its fields. -/
theorem leadsTo_queryField
    (hnodup : ((object.pushFields (TypeMap.addedTo added object.name)).fields.map
      (·.name)).Nodup) {field : FieldDef}
    (hfield : field ∈ queryFields schema
      (object.pushFields (TypeMap.addedTo added object.name))) :
    result.schema.LeadsTo field.type .object ∧ Fits result.schema field := by
  have hfilters : (((object.pushFields (TypeMap.addedTo added object.name)).fields.map
      (filterArgument schema)).map (·.name)).Nodup := by
    rw [List.map_map]
    exact hnodup
  have harguments : ∀ arg ∈ (object.pushFields (TypeMap.addedTo added object.name)).fields.map
      (filterArgument schema), result.schema.LeadsTo arg.type .input :=
    List.forall_mem_map.mpr fun field hfield =>
      h.leadsTo_filterArgument hwf hfree hobject hfield
  have hleads : field.type.leafName = object.name ∧ field.arguments =
      (object.pushFields (TypeMap.addedTo added object.name)).fields.map
        (filterArgument schema) := by
    rw [queryFields] at hfield
    simp only [List.mem_cons, List.not_mem_nil, or_false] at hfield
    rcases hfield with rfl | rfl
    · exact ⟨rfl, rfl⟩
    · exact ⟨rfl, rfl⟩
  have hobjectType := h.leadsTo_object hwf.keyed hobject hleads.1
  exact ⟨hobjectType, hobjectType.mem_keys, hleads.2 ▸ hfilters, hleads.2 ▸ harguments⟩

end

/-! ### Distinct fields -/

section

variable (h : Appended schema result added types) (hkeyed : schema.Keyed)
  (hdistinct : schema.DistinctFields) (hfree : ∀ name ∈ mutationResults, name ∉ schema.types.keys)

include h hkeyed hdistinct hfree

/-- No relation field has the name of a field that its type declares, or of another relation
field. -/
theorem distinctFields_pushFields {type : TypeDef} (htype : type ∈ schema.types.values) :
    (type.pushFields (TypeMap.addedTo added type.name)).DistinctFields := by
  have hdeclared : type.DistinctFields :=
    hdistinct type (List.mem_cons_of_mem _ (List.mem_cons_of_mem _ htype))
  refine hdeclared.pushFields (nodup_map_name_addedTo h.relations type.name) ?_
  intro field hfield
  obtain ⟨target, hget, hnew⟩ :=
    h.relations.hasField_eq_false _ (TypeMap.mem_addedTo_iff.mp hfield)
  rw [get?_addResultScalars hfree (hkeyed.get?_of_mem_values htype)] at hget
  obtain rfl := Option.some.inj hget
  exact hnew

/-- Neither a type nor a root declares a field twice after augmentation. -/
theorem distinctFields (hcollision : CollisionFree schema) : result.schema.DistinctFields := by
  have hroots : ∀ root ∈ [schema.query, schema.mutation], root.DistinctFields :=
    fun root hroot => hdistinct root (List.mem_append_left schema.types.values hroot)
  refine List.forall_mem_cons.mpr ⟨?_, List.forall_mem_cons.mpr ⟨?_, fun type htype => ?_⟩⟩
  · rw [h.query_eq]
    refine (hroots _ List.mem_cons_self).pushFields h.nodup_queries fun field hfield => ?_
    rw [h.types_eq, List.flatMap_map] at hfield
    obtain ⟨object, hobject, hquery⟩ := List.mem_flatMap.mp hfield
    exact hcollision.queries object hobject _ (List.mem_map_of_mem (f := (·.name)) hquery)
  · rw [h.mutation_eq]
    refine (hroots _ (List.mem_cons_of_mem _ List.mem_cons_self)).pushFields h.nodup_mutations
      fun field hfield => ?_
    rw [h.types_eq, List.flatMap_map] at hfield
    obtain ⟨object, hobject, hmutation⟩ := List.mem_flatMap.mp hfield
    exact hcollision.mutations object hobject _ (List.mem_map_of_mem (f := (·.name)) hmutation)
  · obtain ⟨old, hold, rfl⟩ | ⟨name, -, rfl⟩ | ⟨object, hobject, rfl⟩ :=
      h.mem_values hkeyed htype
    · exact h.distinctFields_pushFields hkeyed hdistinct hfree hold
    · exact List.nodup_nil
    · have hobjectFields := h.distinctFields_pushFields hkeyed hdistinct hfree
        (mem_userObjects_iff.mp hobject).1
      rw [TypeDef.DistinctFields, inputType, map_name_inputField]
      exact hobjectFields

end

/-! ### The whole schema -/

section

variable (h : Appended schema result added types) (hwf : schema.WellFormed)
  (hfree : ∀ name ∈ mutationResults, name ∉ schema.types.keys)

include h hwf hfree

/-- The fields of the roots are those of the schema, mutations and queries. -/
theorem leadsTo_rootField {root : TypeDef}
    (hroot : root ∈ [result.schema.query, result.schema.mutation]) {field : FieldDef}
    (hfield : field ∈ root.fields) :
    result.schema.LeadsTo field.type .object ∧ Fits result.schema field := by
  have hdeclared : ∀ old ∈ [schema.query, schema.mutation], field ∈ old.fields →
      result.schema.LeadsTo field.type .object ∧ Fits result.schema field := by
    intro old hold hmem
    have hdeclaration : old ∈ schema.declarations := List.mem_append_left schema.types.values hold
    exact ⟨h.leadsTo (hwf.roots old hold field hmem),
      h.fits (fits_of_wellFormed hwf hdeclaration hmem)⟩
  rcases List.mem_pair.mp hroot with rfl | rfl
  · rw [h.query_eq_pushFields hwf.keyed hfree (resolved_of_wellFormed hwf)] at hfield
    rcases List.mem_append.mp hfield with hold | hquery
    · exact hdeclared _ List.mem_cons_self hold
    · obtain ⟨object, hobject, hquery⟩ := List.mem_flatMap.mp hquery
      have hnodup := h.distinctFields_pushFields hwf.keyed hwf.distinctFields hfree
        (mem_userObjects_iff.mp hobject).1
      exact h.leadsTo_queryField hwf hfree hobject hnodup hquery
  · rw [h.mutation_eq_pushFields] at hfield
    rcases List.mem_append.mp hfield with hold | hmutation
    · exact hdeclared _ (List.mem_cons_of_mem _ List.mem_cons_self) hold
    · obtain ⟨object, hobject, hmutation⟩ := List.mem_flatMap.mp hmutation
      exact h.leadsTo_mutationField hwf hobject hmutation

/-- **What fields and arguments refer to after augmentation**: to types of the schema, and
arguments to scalars and input types. -/
theorem fits_of_mem_declarations {type : TypeDef} (htype : type ∈ result.schema.declarations)
    {field : FieldDef} (hfield : field ∈ type.fields) : Fits result.schema field := by
  rcases List.mem_append.mp (show type ∈ [result.schema.query, result.schema.mutation] ++
    result.schema.types.values from htype) with hroot | hvalue
  · exact (h.leadsTo_rootField hwf hfree hroot hfield).2
  · obtain ⟨old, hold, rfl⟩ | ⟨name, -, rfl⟩ | ⟨object, hobject, rfl⟩ :=
      h.mem_values hwf.keyed hvalue
    · rcases List.mem_append.mp hfield with hdeclared | hrelation
      · have hdeclaration : old ∈ schema.declarations :=
          List.mem_append_right [schema.query, schema.mutation] hold
        exact h.fits (fits_of_wellFormed hwf hdeclaration hdeclared)
      · obtain ⟨-, owner, howner, rfl⟩ :=
          h.exists_owner_of_mem_addedTo hwf.keyed hfree hrelation
        exact h.fits_relationField hwf howner _
    · exact absurd hfield List.not_mem_nil
    · obtain ⟨field, hmem, rfl⟩ := List.mem_map.mp hfield
      exact h.fits_inputField hwf hfree hobject hmem

/-- **After augmentation, a schema is as well formed as it was before.** -/
theorem wellFormed (hcollision : CollisionFree schema) : result.schema.WellFormed where
  keyed := h.keyed hwf.keyed
  standard name hname := by
    obtain ⟨type, hget, hscalar⟩ := hwf.standard name hname
    exact ⟨_, h.get?_eq hget, hscalar⟩
  builtin type htype hbuiltin := by
    obtain ⟨old, hold, rfl⟩ | ⟨name, -, rfl⟩ | ⟨object, -, rfl⟩ := h.mem_values hwf.keyed htype
    · exact hwf.builtin old hold hbuiltin
    · rfl
    · cases hbuiltin
  distinctFields := h.distinctFields hwf.keyed hwf.distinctFields hfree hcollision
  distinctArguments _ htype _ hfield := (h.fits_of_mem_declarations hwf hfree htype hfield).nodup
  resolved _ htype _ hfield :=
    have hfits := h.fits_of_mem_declarations hwf hfree htype hfield
    ⟨hfits.mem_keys, fun arg harg => (hfits.arguments arg harg).mem_keys⟩
  roots _ hroot _ hfield := (h.leadsTo_rootField hwf hfree hroot hfield).1
  objects type htype hkind field hfield := by
    obtain ⟨old, hold, rfl⟩ | ⟨name, -, rfl⟩ | ⟨object, -, rfl⟩ := h.mem_values hwf.keyed htype
    · rcases List.mem_append.mp hfield with hdeclared | hrelation
      · exact h.leadsTo (hwf.objects old hold hkind field hdeclared)
      · obtain ⟨-, owner, howner, rfl⟩ :=
          h.exists_owner_of_mem_addedTo hwf.keyed hfree hrelation
        exact h.leadsTo_object hwf.keyed howner rfl
    · cases hkind
    · cases hkind
  inputs type htype hkind field hfield := by
    obtain ⟨old, hold, rfl⟩ | ⟨name, -, rfl⟩ | ⟨object, hobject, rfl⟩ :=
      h.mem_values hwf.keyed htype
    · rcases List.mem_append.mp hfield with hdeclared | hrelation
      · exact h.leadsTo (hwf.inputs old hold hkind field hdeclared)
      · have hobject := h.mem_userObjects_of_mem_addedTo hwf.keyed hfree hold hrelation
        cases (kind_of_mem_userObjects hobject).symm.trans hkind
    · cases hkind
    · obtain ⟨field, hmem, rfl⟩ := List.mem_map.mp hfield
      exact h.leadsTo_inputField hwf hfree hobject hmem
  arguments _ htype _ hfield := (h.fits_of_mem_declarations hwf hfree htype hfield).arguments

end

end Appended

end Augment

/-- **Augmentation keeps schemas well formed.** Where a schema is well formed and has no type of
the name of a marker, augmentation gives a well-formed schema or an error, and the markers are
the scalars of the generator. -/
theorem augment_wellFormed {schema : Schema} {result : Augmentation} (hwf : schema.WellFormed)
    (hfree : ∀ name ∈ mutationResults, name ∉ schema.types.keys)
    (h : augment schema = .ok result) :
    result.schema.WellFormed ∧
      ∀ name ∈ mutationResults, result.schema.get? name = some (.givenScalar name) := by
  obtain ⟨-, hcollision⟩ := Augment.resolved_and_collisionFree hwf.keyed hfree h
  obtain ⟨added, types, happended⟩ := Augment.exists_appended hwf.keyed hfree h
  exact ⟨happended.wellFormed hwf hfree hcollision, fun name hname => happended.get?_marker hname⟩

/-- A schema in which ships refer to each other and to their harbor, with a berth as the argument
of a field. -/
def harborSchema : Schema where
  types := .ofList (standardScalars.map .givenScalar ++
    [{ name := "Ship"
       fields := [{ name := "home", type := .named "Harbor" false },
         { name := "tugs", type := .list (.named "Ship" false) true }] },
     { name := "Harbor"
       fields := [{ name := "depth", type := .named "Metres" true },
         { name := "moored", type := .named "Ship" true
           arguments := [{ name := "berth", type := .named "Berth" true }] }] },
     { name := "Berth", kind := .input
       fields := [{ name := "number", type := .named "Int" false }] },
     { name := "Metres", kind := .scalar }])
  query := { name := "Query", fields := [{ name := "flagship", type := .named "Ship" true }] }
  mutation := { name := "Mutation" }

/-- The two types refer to each other, and so do their input types. -/
theorem augment_wellFormed_harbor :
    harborSchema.WellFormed ∧ (∀ name ∈ mutationResults, name ∉ harborSchema.types.keys) ∧
    ∃ result, augment harborSchema = .ok result ∧
      (result.schema.get? "Harbor_Data").map (fun input =>
        input.fields.map fun field => (field.name, field.type.leafName)) =
          some [("depth", "Metres"), ("moored", "Ship_Data"), ("ships_as_harbor", "Ship_Data")] ∧
      result.schema.WellFormed ∧
      ∀ name ∈ mutationResults, result.schema.get? name = some (.givenScalar name) := by
  have hwf : harborSchema.WellFormed := by decide
  have hfree : ∀ name ∈ mutationResults, name ∉ harborSchema.types.keys := by decide
  obtain ⟨result, h, hinput⟩ : ∃ result, augment harborSchema = .ok result ∧
      (result.schema.get? "Harbor_Data").map (fun input =>
        input.fields.map fun field => (field.name, field.type.leafName)) =
          some [("depth", "Metres"), ("moored", "Ship_Data"), ("ships_as_harbor", "Ship_Data")] :=
    ⟨_, rfl, rfl⟩
  exact ⟨hwf, hfree, result, h, hinput, augment_wellFormed hwf hfree h⟩

end ClientSdk
