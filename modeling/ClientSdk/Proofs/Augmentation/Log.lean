import ClientSdk.Proofs.Augmentation.Passes

/-!
# The Log of Augmentation

Augmentation only appends: every type keeps its place and everything it declares, relation
fields come after the fields of user-declared object types, and new types and root fields come
last. The list of changes is exactly what was appended, in order.

## Main definitions

* `Augment.relationField`: the field of a type that leads to its owner.
* `Augment.Extended`: what the passes over the types have made of a schema.
* `Augment.Appended`: what augmentation has appended, in terms of its passes.
* `Augment.AppendsOnly`: the result of augmentation has all that was given, and its changes are
  the additions.

## Main results

* `Augment.relationOf?_eq_some_iff`: which fields give rise to relations.
* `Augment.exists_extended`, `Augment.exists_appended`: what augmentation has appended, type by
  type.
* `augment_appendsOnly`: augmentation only appends, and its log is exact.
-/

namespace ClientSdk

namespace Augment

variable {schema : Schema}

/-! ### Targets of relations -/

/-- The types for which declarations are synthesized are values of the schema. -/
theorem mem_userObjects_iff {type : TypeDef} :
    type ∈ schema.userObjects ↔ type ∈ schema.types.values ∧ type.isUserObject = true :=
  List.mem_filter

/-- In a keyed schema, a user-declared object type stands under its name. -/
theorem get?_of_mem_userObjects (hkeyed : schema.Keyed) {type : TypeDef}
    (h : type ∈ schema.userObjects) : schema.get? type.name = some type :=
  hkeyed.get?_of_mem_values (mem_userObjects_iff.mp h).1

/-- In a keyed schema, the name of a user-declared object type is a key. -/
theorem name_mem_keys (hkeyed : schema.Keyed) {type : TypeDef} (h : type ∈ schema.userObjects) :
    type.name ∈ schema.types.keys :=
  hkeyed.name_mem_keys (mem_userObjects_iff.mp h).1

/-- In a keyed schema, no two user-declared object types have one name. -/
theorem nodup_name_userObjects (hkeyed : schema.Keyed) :
    (schema.userObjects.map (·.name)).Nodup :=
  hkeyed.nodup_name.sublist (List.filter_sublist.map _)

/-- No marker is a user-declared object type. -/
theorem isUserObject_of_mem_markers {entry : String × TypeDef} (h : entry ∈ markers) :
    entry.2.isUserObject = false := by
  obtain ⟨name, -, rfl⟩ := List.mem_map.mp h
  rfl

/-- The field of `referenced` that leads to the values of `owner` that refer to it. -/
def relationField (owner referenced : String) : FieldDef where
  name := Text.plural (Text.lower owner) ++ "_as_" ++ Text.lower referenced
  type := .list (.named owner false) false

/-- A field gives rise to a relation when it is no list and refers to a user-declared object
type. -/
theorem relationOf?_eq_some_iff {owner : TypeDef} {field : FieldDef}
    {relation : String × FieldDef} :
    relationOf? schema owner field = some relation ↔
      field.type.isList = false ∧ ∃ referenced, schema.get? field.type.leafName = some referenced ∧
        referenced.isUserObject = true ∧
        relation = (referenced.name, relationField owner.name referenced.name) := by
  rw [relationOf?]
  cases hlist : field.type.isList with
  | true => simp
  | false =>
      rw [if_neg Bool.false_ne_true]
      constructor
      · intro h
        cases hget : schema.get? field.type.leafName with
        | none =>
            rw [hget] at h
            cases h
        | some referenced =>
            rw [hget] at h
            dsimp only at h
            split at h
            · rename_i huser
              obtain rfl := Option.some.inj h
              exact ⟨rfl, referenced, rfl, huser, rfl⟩
            · cases h
      · rintro ⟨-, referenced, hget, huser, rfl⟩
        rw [hget]
        dsimp only
        rw [if_pos huser]
        rfl

/-- The markers give rise to no relations. -/
theorem relations_addResultScalars (hfree : ∀ name ∈ mutationResults, name ∉ schema.types.keys)
    (owners : List TypeDef) :
    relations (addResultScalars schema) owners = relations schema owners := by
  have hmarked : ∀ name referenced, referenced.isUserObject = true →
      ((addResultScalars schema).get? name = some referenced ↔
        schema.get? name = some referenced) := by
    intro name referenced huser
    rw [Schema.get?, Schema.get?, TypeMap.get?_eq_some_iff, TypeMap.get?_eq_some_iff,
      (entries_addResultScalars hfree).1, List.mem_append]
    refine or_iff_left fun hmarker => ?_
    rw [isUserObject_of_mem_markers hmarker] at huser
    cases huser
  have hsame : relationOf? (addResultScalars schema) = relationOf? schema := by
    funext owner field
    refine Option.ext fun relation => ?_
    rw [relationOf?_eq_some_iff, relationOf?_eq_some_iff]
    refine and_congr_right fun _ => exists_congr fun referenced => ?_
    rw [and_left_comm, and_left_comm (b := referenced.isUserObject = true)]
    exact and_congr_right fun huser => and_congr_left fun _ => hmarked _ referenced huser
  rw [relations, relations, hsame]

/-- A relation is for a user-declared object type of the schema that was given. -/
theorem exists_userObject_of_mem_relations
    (hfree : ∀ name ∈ mutationResults, name ∉ schema.types.keys) {owners : List TypeDef}
    {relation : String × FieldDef}
    (h : relation ∈ relations (addResultScalars schema) owners) :
    ∃ type ∈ schema.userObjects, type.name = relation.1 := by
  rw [relations_addResultScalars hfree] at h
  obtain ⟨owner, -, hrelation⟩ := List.mem_flatMap.mp h
  obtain ⟨field, -, hfield⟩ := List.mem_filterMap.mp hrelation
  obtain ⟨-, referenced, hget, huser, rfl⟩ := relationOf?_eq_some_iff.mp hfield
  exact ⟨referenced, mem_userObjects_iff.mpr ⟨Schema.mem_values_of_get? hget, huser⟩, rfl⟩

/-- Nothing is added under a key that is no target. -/
theorem addedTo_eq_nil {added : List (String × FieldDef)} {key : String}
    (h : ∀ entry ∈ added, entry.1 ≠ key) : TypeMap.addedTo added key = [] := by
  rw [TypeMap.addedTo, List.filter_eq_nil_iff.mpr, List.map_nil]
  intro entry hentry
  simpa using h entry hentry

/-! ### What has been appended -/

/-- The result of augmentation in terms of the relation fields that were added and of the object
types as they are with these: every part of the result is what was given, with additions at its
end. -/
structure Appended (schema : Schema) (result : Augmentation)
    (added : List (String × FieldDef)) (types : List TypeDef) : Prop where
  /-- The relation fields are those of the user-declared object types. -/
  relations : RelationsAdded (addResultScalars schema)
    (relations (addResultScalars schema) schema.userObjects) added
  /-- The object types are read with their relation fields. -/
  types_eq : types = schema.userObjects.map fun type =>
    type.pushFields (TypeMap.addedTo added type.name)
  /-- The types with their relation fields come first, then the markers and the input types. -/
  entries_eq : result.schema.types.entries = (schema.types.withFields added).entries ++
    (markers ++ inputEntries (schema.userObjects.map (·.name)) types)
  /-- The mutations come after the fields of their root. -/
  mutation_eq : result.schema.mutation =
    schema.mutation.pushFields (types.flatMap mutationFields)
  /-- The queries come after the fields of their root. -/
  query_eq : result.schema.query =
    schema.query.pushFields (types.flatMap (queryFields result.schema))
  /-- No two mutations have one name. -/
  nodup_mutations : ((types.flatMap mutationFields).map (·.name)).Nodup
  /-- No two queries have one name. -/
  nodup_queries : ((types.flatMap (queryFields result.schema)).map (·.name)).Nodup
  /-- The changes are the additions, pass by pass. -/
  changes_eq : result.changes =
    mutationResults.map .markerType ++
    added.map (fun entry => .relationField entry.1 entry.2.name) ++
    types.map (fun type => .inputType (inputTypeName type.name)) ++
    (types.flatMap mutationFields).map (fun field => .mutationField field.name) ++
    (types.flatMap (queryFields result.schema)).map (fun field => .queryField field.name)

/-- Relation fields leave the markers as they are. -/
theorem entries_withFields_addResultScalars
    (hfree : ∀ name ∈ mutationResults, name ∉ schema.types.keys)
    {added : List (String × FieldDef)} (hadded : ∀ entry ∈ added, entry.1 ∈ schema.types.keys) :
    ((addResultScalars schema).types.withFields added).entries =
      (schema.types.withFields added).entries ++ markers := by
  dsimp only [TypeMap.withFields]
  rw [(entries_addResultScalars hfree).1, List.map_append]
  congr 1
  refine (List.map_congr_left fun entry hentry => ?_).trans (List.map_id _)
  obtain ⟨name, hname, rfl⟩ := List.mem_map.mp hentry
  rw [addedTo_eq_nil, TypeDef.pushFields_nil]
  · rfl
  · rintro relation hrelation rfl
    exact hfree _ hname (hadded relation hrelation)

/-- The markers take the place of no type. -/
theorem get?_addResultScalars (hfree : ∀ name ∈ mutationResults, name ∉ schema.types.keys)
    {name : String} {type : TypeDef} (h : schema.get? name = some type) :
    (addResultScalars schema).get? name = some type := by
  rw [Schema.get?, TypeMap.get?_eq_some_iff] at h ⊢
  rw [(entries_addResultScalars hfree).1]
  exact List.mem_append_left _ h

/-- An object type is read as it was given, with its relation fields. -/
theorem get?_withFields_addResultScalars (hkeyed : schema.Keyed)
    (hfree : ∀ name ∈ mutationResults, name ∉ schema.types.keys)
    (added : List (String × FieldDef)) {type : TypeDef} (htype : type ∈ schema.userObjects) :
    ((addResultScalars schema).types.withFields added).get? type.name =
      some (type.pushFields (TypeMap.addedTo added type.name)) := by
  have hmarked := get?_addResultScalars hfree (get?_of_mem_userObjects hkeyed htype)
  rw [TypeMap.get?_withFields, ← Schema.get?, hmarked, Option.map_some]

/-- The schema as the passes over the roots find it: relation fields and input types are there,
and the roots are as they were given. -/
structure Extended (schema extended : Schema) (added : List (String × FieldDef))
    (types : List TypeDef) : Prop where
  /-- The relation fields are those of the user-declared object types. -/
  relations : RelationsAdded (addResultScalars schema)
    (relations (addResultScalars schema) schema.userObjects) added
  /-- The object types are read with their relation fields. -/
  types_eq : types = schema.userObjects.map fun type =>
    type.pushFields (TypeMap.addedTo added type.name)
  /-- The types with their relation fields come first, then the markers and the input types. -/
  entries_eq : extended.types.entries = (schema.types.withFields added).entries ++
    (markers ++ inputEntries (schema.userObjects.map (·.name)) types)
  /-- The root of queries is the same. -/
  query_eq : extended.query = schema.query
  /-- The root of mutations is the same. -/
  mutation_eq : extended.mutation = schema.mutation

/-- Neither markers nor relation fields take away an object type. -/
theorem name_mem_keys_withFields (hkeyed : schema.Keyed)
    (hfree : ∀ name ∈ mutationResults, name ∉ schema.types.keys)
    (added : List (String × FieldDef)) :
    ∀ name ∈ schema.userObjects.map (·.name),
      name ∈ ((addResultScalars schema).types.withFields added).keys := by
  intro name hname
  obtain ⟨type, htype, rfl⟩ := List.mem_map.mp hname
  rw [TypeMap.keys_withFields, TypeMap.keys, (entries_addResultScalars hfree).1, List.map_append]
  exact List.mem_append_left _ (name_mem_keys hkeyed htype)

/-- **The passes over the types** add relation fields and input types, and leave the roots
alone. -/
theorem exists_extended (hkeyed : schema.Keyed)
    (hfree : ∀ name ∈ mutationResults, name ∉ schema.types.keys) {related extended : Schema}
    {log : List (String × String)} {types : List TypeDef}
    (hrelated : addRelations (addResultScalars schema)
      (relations (addResultScalars schema) schema.userObjects) = .ok (related, log))
    (hextended : addInputs related (schema.userObjects.map (·.name)) = .ok (extended, types)) :
    ∃ added, Extended schema extended added types ∧
      log = added.map fun entry => (entry.1, entry.2.name) := by
  obtain ⟨-, hmarkedQuery, hmarkedMutation⟩ := entries_addResultScalars hfree
  obtain ⟨added, hadded, rfl, rfl⟩ := exists_relationsAdded hrelated
  have htarget : ∀ entry ∈ added, entry.1 ∈ schema.types.keys := by
    intro entry hentry
    obtain ⟨type, htype, hname⟩ :=
      exists_userObject_of_mem_relations hfree (hadded.sublist.subset hentry)
    exact hname ▸ name_mem_keys hkeyed htype
  have hentries := entries_withFields_addResultScalars hfree htarget
  have hinputs := InputsAdded.of_foldlM hextended (name_mem_keys_withFields hkeyed hfree added)
  refine ⟨added, ⟨hadded, ?_, ?_, ?_, ?_⟩, rfl⟩
  · have hread : List.Forall₂ (fun type read =>
        type.pushFields (TypeMap.addedTo added type.name) = read) schema.userObjects types := by
      refine (forall₂_and_mem (List.forall₂_map_left_iff.mp hinputs.types_eq)).imp ?_
      rintro type read ⟨hget, htype, -⟩
      rw [Schema.get?, get?_withFields_addResultScalars hkeyed hfree added htype] at hget
      exact Option.some.inj hget
    rw [← List.forall₂_map_left_iff, List.forall₂_eq_eq_eq] at hread
    exact hread.symm
  · exact hinputs.entries_eq.trans (by rw [hentries, List.append_assoc])
  · exact hinputs.query_eq.trans hmarkedQuery
  · exact hinputs.mutation_eq.trans hmarkedMutation

namespace Extended

variable {extended : Schema} {added : List (String × FieldDef)} {types : List TypeDef}

/-- Relation fields keep the names of the object types. -/
theorem map_name_types {α : Type} (h : Extended schema extended added types) (f : String → α) :
    types.map (fun type => f type.name) = schema.userObjects.map fun type => f type.name := by
  rw [h.types_eq, List.map_map]
  rfl

/-- The keys of the types, the markers and the input types. -/
theorem keys_eq (h : Extended schema extended added types) :
    extended.types.keys = schema.types.keys ++ mutationResults ++
      schema.userObjects.map fun type => inputTypeName type.name := by
  have hmarkers : markers.map Prod.fst = mutationResults := by rfl
  have hinputs : (inputEntries (schema.userObjects.map (·.name)) types).map Prod.fst =
      schema.userObjects.map fun type => inputTypeName type.name := by
    rw [← h.map_name_types inputTypeName, inputEntries, List.map_map]
    rfl
  rw [TypeMap.keys, h.entries_eq, List.map_append, List.map_append, hmarkers, hinputs,
    ← List.append_assoc]
  exact congrArg (· ++ _ ++ _) (TypeMap.keys_withFields schema.types added)

end Extended

/-- **What augmentation has appended**, where the schema is keyed and the names of the markers
are free. -/
theorem exists_appended {result : Augmentation} (hkeyed : schema.Keyed)
    (hfree : ∀ name ∈ mutationResults, name ∉ schema.types.keys)
    (h : augment schema = .ok result) : ∃ added types, Appended schema result added types := by
  obtain ⟨-, related, log, extended, types, mutation, query, hrelated, hextended, hmutation,
    hquery, rfl⟩ := augment_eq_ok_iff.mp h
  obtain ⟨added, hextended, rfl⟩ := exists_extended hkeyed hfree hrelated hextended
  obtain ⟨hnodupMutations, -, rfl⟩ := addRootFields_eq_ok_iff.mp hmutation
  obtain ⟨hnodupQueries, -, rfl⟩ := addRootFields_eq_ok_iff.mp hquery
  refine ⟨added, types, hextended.relations, hextended.types_eq, hextended.entries_eq, ?_, ?_,
    hnodupMutations, hnodupQueries, ?_⟩
  · exact congrArg (TypeDef.pushFields · _) hextended.mutation_eq
  · exact congrArg (TypeDef.pushFields · _) hextended.query_eq
  · dsimp only
    rw [List.map_map]
    rfl

/-! ### The log -/

/-- The result of augmentation has everything that the schema had, in its place: `relations`
come after the fields of their types, the markers and the input types after the types, and
`mutations` and `queries` after the fields of their roots. The changes are these additions. -/
structure AppendsOnly (schema : Schema) (result : Augmentation)
    (relations : List (String × FieldDef)) (mutations queries : List FieldDef) : Prop where
  /-- Every type of the result stands under its name. -/
  keyed : result.schema.Keyed
  /-- The types are those of the schema, the markers, and an input type for each user-declared
  object type. -/
  keys_eq : result.schema.types.keys = schema.types.keys ++
    ["sdk:MutationRef.InsertData", "sdk:MutationRef.UpdateData", "sdk:MutationRef.DeleteData"] ++
    schema.userObjects.map fun type => type.name ++ "_Data"
  /-- Every type of the schema keeps its place and all that it declares, and gets its relation
  fields after its own. -/
  entries_kept : ∃ new, result.schema.types.entries =
    (schema.types.withFields relations).entries ++ new
  /-- Relation fields are for user-declared object types only. -/
  exists_userObject : ∀ relation ∈ relations, ∃ type ∈ schema.userObjects,
    type.name = relation.1
  /-- The root of mutations gets the mutations after its own fields. -/
  mutation_eq : result.schema.mutation = schema.mutation.pushFields mutations
  /-- The root of queries gets the queries after its own fields. -/
  query_eq : result.schema.query = schema.query.pushFields queries
  /-- The changes are all that was added, pass by pass and in order. -/
  changes_eq : result.changes =
    [.markerType "sdk:MutationRef.InsertData", .markerType "sdk:MutationRef.UpdateData",
      .markerType "sdk:MutationRef.DeleteData"] ++
    relations.map (fun relation => .relationField relation.1 relation.2.name) ++
    schema.userObjects.map (fun type => .inputType (type.name ++ "_Data")) ++
    mutations.map (fun field => .mutationField field.name) ++
    queries.map (fun field => .queryField field.name)
  /-- No change is listed twice. -/
  nodup_changes : result.changes.Nodup

/-- Changes that differ in their names only are distinct when the names are. -/
theorem nodup_map_addition {α β : Type} {addition : β → Addition}
    (hinjective : Function.Injective addition) {name : α → β} {as : List α}
    (h : (as.map name).Nodup) : (as.map fun a => addition (name a)).Nodup := by
  have hnodup := h.map hinjective
  rwa [List.map_map] at hnodup

namespace Appended

variable {result : Augmentation} {added : List (String × FieldDef)} {types : List TypeDef}

/-- Before the roots are changed, the types are those of the result. -/
theorem extended (h : Appended schema result added types) :
    Extended schema { schema with types := result.schema.types } added types :=
  ⟨h.relations, h.types_eq, h.entries_eq, rfl, rfl⟩

/-- Relation fields keep the names of the object types. -/
theorem map_name_types {α : Type} (h : Appended schema result added types) (f : String → α) :
    types.map (fun type => f type.name) = schema.userObjects.map fun type => f type.name :=
  h.extended.map_name_types f

/-- The keys after augmentation. -/
theorem keys_eq (h : Appended schema result added types) :
    result.schema.types.keys = schema.types.keys ++ mutationResults ++
      schema.userObjects.map fun type => inputTypeName type.name :=
  h.extended.keys_eq

/-- A type of the schema has become what it was, with relation fields. -/
theorem get?_eq (h : Appended schema result added types) {name : String} {type : TypeDef}
    (hget : schema.get? name = some type) :
    result.schema.get? name = some (type.pushFields (TypeMap.addedTo added name)) := by
  have hold : (schema.types.withFields added).get? name =
      some (type.pushFields (TypeMap.addedTo added name)) := by
    rw [TypeMap.get?_withFields, ← Schema.get?, hget, Option.map_some]
  rw [TypeMap.get?_eq_some_iff] at hold
  rw [Schema.get?, TypeMap.get?_eq_some_iff, h.entries_eq]
  exact List.mem_append_left _ hold

/-- The markers are there. -/
theorem get?_marker (h : Appended schema result added types) {name : String}
    (hname : name ∈ mutationResults) : result.schema.get? name = some (.givenScalar name) := by
  rw [Schema.get?, TypeMap.get?_eq_some_iff, h.entries_eq]
  refine List.mem_append_right _ (List.mem_append_left _ ?_)
  exact List.mem_map_of_mem (f := fun name => (name, TypeDef.givenScalar name)) hname

/-- Every type after augmentation stands under its name. -/
theorem keyed (h : Appended schema result added types) (hkeyed : schema.Keyed) :
    result.schema.Keyed := by
  intro entry hentry
  rw [h.entries_eq, List.mem_append, List.mem_append] at hentry
  rcases hentry with hold | hmarker | hinput
  · obtain ⟨old, hmem, rfl⟩ := List.mem_map.mp hold
    exact hkeyed old hmem
  · obtain ⟨name, -, rfl⟩ := List.mem_map.mp hmarker
    rfl
  · obtain ⟨type, -, rfl⟩ := List.mem_map.mp hinput
    rfl

/-- No change is listed twice: within a pass because of the names, and between passes because
they make changes of different sorts. -/
theorem nodup_changes (h : Appended schema result added types) : result.changes.Nodup := by
  have hmarkers : (mutationResults.map Addition.markerType).Nodup := by decide
  have hinjective : Function.Injective fun entry : String × String =>
      Addition.relationField entry.1 entry.2 := by
    rintro ⟨type, field⟩ ⟨type', field'⟩ heq
    cases heq
    rfl
  have hrelations := nodup_map_addition hinjective h.relations.nodup
  have hinputs : (types.map fun type => Addition.inputType (inputTypeName type.name)).Nodup := by
    have hkeys : result.schema.types.keys.Nodup := result.schema.types.nodup_keys
    rw [h.keys_eq, ← h.map_name_types inputTypeName] at hkeys
    exact nodup_map_addition (fun _ _ => Addition.inputType.inj) hkeys.of_append_right
  have hmutations := nodup_map_addition (fun _ _ => Addition.mutationField.inj)
    h.nodup_mutations
  have hqueries := nodup_map_addition (fun _ _ => Addition.queryField.inj) h.nodup_queries
  rw [h.changes_eq]
  refine (((hmarkers.append hrelations ?_).append hinputs ?_).append hmutations ?_).append
    hqueries ?_
  all_goals
    intro change hleft hright
    obtain ⟨_, -, rfl⟩ := List.mem_map.mp hright
    simp at hleft

end Appended

end Augment

open Augment in
/-- **Augmentation only appends, and its log is exact.** In a keyed schema in which the names of
the markers are free, whatever augmentation adds comes after what was there, and the list of
changes names each addition once and nothing else. -/
theorem augment_appendsOnly {schema : Schema} {result : Augmentation} (hkeyed : schema.Keyed)
    (hfree : ∀ name ∈ mutationResults, name ∉ schema.types.keys)
    (h : augment schema = .ok result) :
    ∃ relations mutations queries, AppendsOnly schema result relations mutations queries := by
  obtain ⟨added, types, happended⟩ := exists_appended hkeyed hfree h
  have hinputs := happended.map_name_types fun name => Addition.inputType (inputTypeName name)
  exact ⟨added, types.flatMap mutationFields, types.flatMap (queryFields result.schema),
    { keyed := happended.keyed hkeyed
      keys_eq := happended.keys_eq
      entries_kept := ⟨_, happended.entries_eq⟩
      exists_userObject := fun entry hentry =>
        exists_userObject_of_mem_relations hfree (happended.relations.sublist.subset hentry)
      mutation_eq := happended.mutation_eq
      query_eq := happended.query_eq
      changes_eq := by
        rw [happended.changes_eq, hinputs]
        rfl
      nodup_changes := happended.nodup_changes }⟩

/-- A schema in which a type refers twice to another one. -/
def movieSchema : Schema where
  types := .ofList (standardScalars.map .givenScalar ++
    [{ name := "Movie"
       fields := [{ name := "studio", type := .named "Studio" true },
         { name := "distributor", type := .named "Studio" true }] },
     { name := "Studio", fields := [{ name := "city", type := .named "String" false }] }])
  query := { name := "Query", fields := [{ name := "version", type := .named "String" false }] }
  mutation := { name := "Mutation" }

/-- Two references give one relation field, which is listed once among the changes. -/
theorem augment_appendsOnly_movie :
    movieSchema.Keyed ∧ (∀ name ∈ mutationResults, name ∉ movieSchema.types.keys) ∧
    ∃ result, augment movieSchema = .ok result ∧
      result.changes = [
        .markerType "sdk:MutationRef.InsertData", .markerType "sdk:MutationRef.UpdateData",
        .markerType "sdk:MutationRef.DeleteData", .relationField "Studio" "movies_as_studio",
        .inputType "Movie_Data", .inputType "Studio_Data",
        .mutationField "movie_insert", .mutationField "movie_delete",
        .mutationField "movie_update", .mutationField "studio_insert",
        .mutationField "studio_delete", .mutationField "studio_update",
        .queryField "movie", .queryField "movies", .queryField "studio", .queryField "studios"] ∧
      ∃ relations mutations queries,
        Augment.AppendsOnly movieSchema result relations mutations queries := by
  have hkeyed : movieSchema.Keyed := by decide
  have hfree : ∀ name ∈ mutationResults, name ∉ movieSchema.types.keys := by decide
  exact ⟨hkeyed, hfree, _, rfl, rfl, augment_appendsOnly hkeyed hfree rfl⟩

end ClientSdk
