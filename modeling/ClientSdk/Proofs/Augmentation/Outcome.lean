import ClientSdk.Proofs.Augmentation.Log
import Mathlib.Tactic.MkIffOfInductiveProp

/-!
# When Augmentation Succeeds

Each pass of augmentation checks names against the schema as the passes before it have left it.
All these checks together come to one condition on the schema that was given: the types that
object types refer to exist, and the names of what is synthesized are distinct and free. No pass
makes a name for another one to collide with.

## Main definitions

* `TypeDef.RefersTo`: a type refers to another one by a field that is no list.
* `Augment.Resolved`: what object types refer to exists.
* `Augment.CollisionFree`: the names of what is synthesized are distinct and free.
* `Augment.Failure`: the pass in which augmentation fails.

## Main results

* `Augment.exists_augment_eq_ok_iff`: augmentation succeeds exactly under these two conditions.
* `augment_outcome`: with the sort of error where one of them fails.
-/

namespace ClientSdk

/-- The type refers to the type `name`: it has a field that is no list and has this type. -/
def TypeDef.RefersTo (type : TypeDef) (name : String) : Prop :=
  ∃ field ∈ type.fields, field.type.isList = false ∧ field.type.leafName = name

instance (type : TypeDef) (name : String) : Decidable (type.RefersTo name) :=
  inferInstanceAs (Decidable (∃ field ∈ _, _))

namespace Augment

variable {schema : Schema}

/-! ### Conditions on a schema -/

/-- Every type that a field of a user-declared object type refers to is a type of the schema, and
so is every type that an argument of such a field refers to. -/
def Resolved (schema : Schema) : Prop :=
  ∀ type ∈ schema.userObjects, ∀ field ∈ type.fields,
    field.type.leafName ∈ schema.types.keys ∧
      ∀ arg ∈ field.arguments, arg.type.leafName ∈ schema.types.keys

instance (schema : Schema) : Decidable (Resolved schema) :=
  inferInstanceAs (Decidable (∀ type ∈ _, ∀ field ∈ _, _))

/-- The names of the mutations of the object type `name`. -/
def mutationNames (name : String) : List String :=
  [Text.lower name ++ "_insert", Text.lower name ++ "_delete", Text.lower name ++ "_update"]

/-- The names of the queries of the object type `name`. -/
def queryNames (name : String) : List String := [Text.lower name, Text.plural (Text.lower name)]

/-- The names of what is synthesized are distinct, and the schema has none of them. -/
@[mk_iff]
structure CollisionFree (schema : Schema) : Prop where
  /-- No type that an object type refers to declares a field with the name of the relation. -/
  relations : ∀ owner ∈ schema.userObjects, ∀ referenced ∈ schema.userObjects,
    owner.RefersTo referenced.name → referenced.hasField
      (Text.plural (Text.lower owner.name) ++ "_as_" ++ Text.lower referenced.name) = false
  /-- No type has the name of an input type. -/
  inputTypes : ∀ type ∈ schema.userObjects, type.name ++ "_Data" ∉ schema.types.keys
  /-- No two mutations have one name. -/
  nodup_mutations : (schema.userObjects.flatMap fun type => mutationNames type.name).Nodup
  /-- The root of mutations declares none of them. -/
  mutations : ∀ type ∈ schema.userObjects, ∀ name ∈ mutationNames type.name,
    schema.mutation.hasField name = false
  /-- No two queries have one name, those of one type included. -/
  nodup_queries : (schema.userObjects.flatMap fun type => queryNames type.name).Nodup
  /-- The root of queries declares none of them. -/
  queries : ∀ type ∈ schema.userObjects, ∀ name ∈ queryNames type.name,
    schema.query.hasField name = false

instance (schema : Schema) : Decidable (CollisionFree schema) :=
  decidable_of_iff' _ (collisionFree_iff schema)

/-- No type declares a field with the name of a relation that it gets. -/
theorem CollisionFree.hasField_relationName (h : CollisionFree schema) {owner referenced : TypeDef}
    (howner : owner ∈ schema.userObjects) (hreferenced : referenced ∈ schema.userObjects)
    (hrefers : owner.RefersTo referenced.name) :
    referenced.hasField (relationName owner.name referenced.name) = false :=
  h.relations owner howner referenced hreferenced hrefers

/-- The name of no input type is taken. -/
theorem CollisionFree.inputTypeName_notMem_keys (h : CollisionFree schema) {type : TypeDef}
    (htype : type ∈ schema.userObjects) : inputTypeName type.name ∉ schema.types.keys :=
  h.inputTypes type htype

/-! ### References -/

/-- What object types refer to exists when each of their references names a type. -/
theorem resolved_iff :
    Resolved schema ↔
      ∀ entry ∈ schema.userObjects.flatMap typeReferences, entry.1 ∈ schema.types.keys := by
  simp only [Resolved, typeReferences, fieldReferences, List.mem_flatMap, List.mem_cons,
    List.mem_map]
  constructor
  · rintro h entry ⟨type, htype, field, hfield, rfl | ⟨arg, harg, rfl⟩⟩
    · exact (h type htype field hfield).1
    · exact (h type htype field hfield).2 arg harg
  · intro h type htype field hfield
    exact ⟨h _ ⟨type, htype, field, hfield, Or.inl rfl⟩,
      fun arg harg => h _ ⟨type, htype, field, hfield, Or.inr ⟨arg, harg, rfl⟩⟩⟩

/-- The check of references succeeds when what object types refer to exists. -/
theorem requireReferences_eq_ok_iff :
    requireReferences schema schema.userObjects = .ok () ↔ Resolved schema := by
  rw [resolved_iff, requireReferences]
  cases hfind : (schema.userObjects.flatMap typeReferences).find? fun entry =>
      !schema.types.contains entry.1 with
  | none =>
      have hall := List.find?_eq_none.mp hfind
      refine iff_of_true rfl fun entry hentry => TypeMap.contains_iff.mp ?_
      simpa using hall entry hentry
  | some entry =>
      have hmissing : entry.1 ∉ schema.types.keys := by
        rw [← TypeMap.contains_iff]
        simpa using List.find?_some hfind
      refine iff_of_false (by simp) fun hall => hmissing (hall entry ?_)
      exact List.mem_of_find?_eq_some hfind

/-- The check of references fails at a reference that names no type. -/
theorem exists_of_requireReferences_eq_error {error : GenerationError}
    (h : requireReferences schema schema.userObjects = .error error) :
    ∃ entry ∈ schema.userObjects.flatMap typeReferences,
      entry.1 ∉ schema.types.keys ∧ error = .missingType entry.1 entry.2 := by
  rw [requireReferences] at h
  split at h
  · rename_i name reference hfind
    obtain rfl := Except.error.inj h
    refine ⟨(name, reference), List.mem_of_find?_eq_some hfind, ?_, rfl⟩
    rw [← TypeMap.contains_iff]
    simpa using List.find?_some hfind
  · cases h

/-! ### Relation fields -/

/-- The relations are those of user-declared object types that refer to others. -/
theorem mem_relations_userObjects_iff (hkeyed : schema.Keyed) {relation : String × FieldDef} :
    relation ∈ relations schema schema.userObjects ↔
      ∃ owner ∈ schema.userObjects, ∃ referenced ∈ schema.userObjects,
        owner.RefersTo referenced.name ∧
          relation = (referenced.name, relationField owner.name referenced.name) := by
  simp only [relations, List.mem_flatMap, List.mem_filterMap, relationOf?_eq_some_iff]
  constructor
  · rintro ⟨owner, howner, field, hfield, hlist, referenced, hget, huser, rfl⟩
    have hreferenced := mem_userObjects_iff.mpr ⟨Schema.mem_values_of_get? hget, huser⟩
    have hname := (hkeyed.name_eq hget).symm
    exact ⟨owner, howner, referenced, hreferenced, ⟨field, hfield, hlist, hname⟩, rfl⟩
  · rintro ⟨owner, howner, referenced, hreferenced, ⟨field, hfield, hlist, hname⟩, rfl⟩
    have hget := get?_of_mem_userObjects hkeyed hreferenced
    exact ⟨owner, howner, field, hfield, hlist, referenced, hname ▸ hget,
      (mem_userObjects_iff.mp hreferenced).2, rfl⟩

/-- So they are when the markers are there. -/
theorem mem_relations_iff (hkeyed : schema.Keyed)
    (hfree : ∀ name ∈ mutationResults, name ∉ schema.types.keys) {relation : String × FieldDef} :
    relation ∈ relations (addResultScalars schema) schema.userObjects ↔
      ∃ owner ∈ schema.userObjects, ∃ referenced ∈ schema.userObjects,
        owner.RefersTo referenced.name ∧
          relation = (referenced.name, relationField owner.name referenced.name) := by
  rw [relations_addResultScalars hfree, mem_relations_userObjects_iff hkeyed]

/-- The types that get relations exist. -/
theorem fst_mem_keys_of_mem_relations (hkeyed : schema.Keyed)
    (hfree : ∀ name ∈ mutationResults, name ∉ schema.types.keys) :
    ∀ relation ∈ relations (addResultScalars schema) schema.userObjects,
      relation.1 ∈ (addResultScalars schema).types.keys := by
  intro relation hrelation
  obtain ⟨type, htype, hname⟩ := exists_userObject_of_mem_relations hfree hrelation
  rw [TypeMap.keys, (entries_addResultScalars hfree).1, List.map_append, ← hname]
  exact List.mem_append_left _ (name_mem_keys hkeyed htype)

/-- A pass over relations fails at a relation whose type is missing, or declares a field of its
name. -/
theorem exists_relation_of_addRelations_eq_error {relations : List (String × FieldDef)}
    {error : GenerationError} (h : addRelations schema relations = .error error) :
    ∃ relation ∈ relations,
      relation.1 ∉ schema.types.keys ∧ error = .missingType relation.1 .relation ∨
      ∃ type, schema.get? relation.1 = some type ∧ type.hasField relation.2.name = true ∧
        error = .namingCollision (.relationField relation.1) relation.2.name := by
  obtain ⟨done, ⟨key, field⟩, rest, ⟨related, log⟩, rfl, hdone, hfail⟩ :=
    exists_step_of_foldlM_eq_error h
  obtain ⟨added, -, rfl, rfl⟩ := exists_relationsAdded hdone
  refine ⟨(key, field), List.mem_append_right _ List.mem_cons_self, ?_⟩
  rw [addRelation] at hfail
  dsimp only at hfail
  split at hfail
  · cases hfail
  · rename_i hunknown
    rw [bind_eq_error_iff, typeNamed_eq_error_iff] at hfail
    rcases hfail with ⟨hmissing, herror⟩ | ⟨target, htarget, hcollision⟩
    · rw [TypeMap.keys_withFields] at hmissing
      exact Or.inl ⟨hmissing, herror⟩
    · rw [typeNamed_eq_ok_iff, Schema.get?, TypeMap.get?_withFields,
        Option.map_eq_some_iff] at htarget
      obtain ⟨type, htype, rfl⟩ := htarget
      split at hcollision
      · rename_i hfield
        obtain rfl := Except.error.inj hcollision
        rw [TypeDef.hasField_pushFields] at hfield
        refine Or.inr ⟨type, htype, hfield.resolve_right fun hname => hunknown ?_, rfl⟩
        -- A field of this name that the pass has added is in the log, and is left out now.
        obtain ⟨other, hother, hsame⟩ := List.mem_map.mp hname
        exact List.mem_map.mpr
          ⟨(key, other), TypeMap.mem_addedTo_iff.mp hother, Prod.ext rfl hsame⟩
      · cases hcollision

/-- A pass over relations fails at a relation whose type declares a field of its name. -/
theorem exists_of_addRelations_eq_error {relations : List (String × FieldDef)}
    {error : GenerationError} (htargets : ∀ relation ∈ relations, relation.1 ∈ schema.types.keys)
    (h : addRelations schema relations = .error error) :
    ∃ relation ∈ relations, ∃ type, schema.get? relation.1 = some type ∧
      type.hasField relation.2.name = true ∧
      error = .namingCollision (.relationField relation.1) relation.2.name := by
  obtain ⟨relation, hrelation, hcause⟩ := exists_relation_of_addRelations_eq_error h
  exact ⟨relation, hrelation, hcause.resolve_left fun hmissing =>
    hmissing.1 (htargets relation hrelation)⟩

/-! ### Input types -/

/-- Object types of different names have input types of different names. -/
theorem inputTypeName_injective : Function.Injective inputTypeName :=
  fun _ _ h => (String.append_left_inj "_Data").mp h

/-- The name of an input type is none of those that end otherwise. -/
theorem inputTypeName_notMem {names : List String}
    (hending : ∀ name ∈ names, ¬ "_Data".toList <:+ name.toList) (name : String) :
    inputTypeName name ∉ names := by
  intro hmem
  refine hending _ hmem ⟨name.toList, ?_⟩
  rw [inputTypeName, String.toList_append]

/-- More fields do not change the name of a type. -/
theorem keyed_withFields (hkeyed : schema.Keyed) (added : List (String × FieldDef)) :
    Schema.Keyed { schema with types := schema.types.withFields added } := by
  intro entry hentry
  obtain ⟨old, hold, rfl⟩ := List.mem_map.mp hentry
  exact hkeyed old hold

/-- The markers stand under their names. -/
theorem keyed_addResultScalars (hkeyed : schema.Keyed)
    (hfree : ∀ name ∈ mutationResults, name ∉ schema.types.keys) :
    (addResultScalars schema).Keyed := by
  intro entry hentry
  rw [(entries_addResultScalars hfree).1, List.mem_append] at hentry
  rcases hentry with hmem | hmarker
  · exact hkeyed entry hmem
  · obtain ⟨name, -, rfl⟩ := List.mem_map.mp hmarker
    rfl

/-- A pass over object types fails at one whose input type has the name of a type. -/
theorem exists_of_addInputs_eq_error (hkeyed : schema.Keyed) {names : List String}
    {error : GenerationError} (hnodup : names.Nodup)
    (hnames : ∀ name ∈ names, name ∈ schema.types.keys)
    (h : addInputs schema names = .error error) :
    ∃ name ∈ names, inputTypeName name ∈ schema.types.keys ∧
      error = .namingCollision .inputType (inputTypeName name) := by
  obtain ⟨done, name, rest, ⟨current, read⟩, rfl, hdone, hfail⟩ :=
    exists_step_of_foldlM_eq_error h
  have hadded := InputsAdded.of_foldlM hdone fun other hother =>
    hnames other (List.mem_append_left _ hother)
  have hmem : name ∈ done ++ name :: rest := List.mem_append_right _ List.mem_cons_self
  obtain ⟨type, hget⟩ :=
    Option.isSome_iff_exists.mp (TypeMap.contains_iff.mpr (hnames name hmem))
  have hname : type.name = name := hkeyed.name_eq hget
  rw [addInput, bind_eq_error_iff] at hfail
  rcases hfail with hmissing | ⟨found, hfound, hcollision⟩
  · rw [typeNamed_eq_error_iff, ← TypeMap.contains_iff, TypeMap.contains] at hmissing
    exact absurd (Option.isSome_iff_exists.mpr ⟨type, hadded.get?_eq hget⟩) hmissing.1
  · rw [typeNamed_eq_ok_iff, hadded.get?_eq hget] at hfound
    obtain rfl := Option.some.inj hfound
    split at hcollision
    · rename_i htaken
      obtain rfl := Except.error.inj hcollision
      rw [TypeMap.contains_iff, TypeMap.keys, hadded.entries_eq, List.map_append,
        List.mem_append] at htaken
      refine ⟨name, hmem, hname ▸ htaken.resolve_right fun hinput => ?_, by rw [hname]⟩
      -- An input type that the pass has added is that of another name.
      obtain ⟨entry, hentry, hkey⟩ := List.mem_map.mp hinput
      obtain ⟨other, hother, rfl⟩ := List.mem_map.mp hentry
      have hsame : other.name = name := (inputTypeName_injective hkey).trans hname
      have hbefore : name ∈ done := by
        rw [← hadded.map_name_types hkeyed, ← hsame]
        exact List.mem_map_of_mem hother
      exact List.disjoint_of_nodup_append hnodup hbefore List.mem_cons_self
    · cases hcollision

/-! ### Root fields -/

/-- Adding fields to a root fails at one whose name the root declares, or one before it has. -/
theorem exists_field_of_addRootFields_eq_error {root : TypeDef} {fields : List FieldDef}
    {error : GenerationError} (h : addRootFields root fields = .error error) :
    ∃ done field rest, fields = done ++ field :: rest ∧
      error = .namingCollision (.rootField root.name) field.name ∧
      (root.hasField field.name = true ∨ field.name ∈ done.map (·.name)) := by
  obtain ⟨done, field, rest, current, rfl, hdone, hfail⟩ := exists_step_of_foldlM_eq_error h
  obtain ⟨-, -, rfl⟩ := addRootFields_eq_ok_iff.mp hdone
  rw [addRootField] at hfail
  split at hfail
  · rename_i htaken
    obtain rfl := Except.error.inj hfail
    exact ⟨done, field, rest, rfl, rfl, TypeDef.hasField_pushFields.mp htaken⟩
  · cases hfail

/-- Adding fields to a root fails at one whose name is taken. -/
theorem exists_of_addRootFields_eq_error {root : TypeDef} {fields : List FieldDef}
    {error : GenerationError} (h : addRootFields root fields = .error error) :
    ∃ field ∈ fields, error = .namingCollision (.rootField root.name) field.name := by
  obtain ⟨done, field, rest, rfl, herror, -⟩ := exists_field_of_addRootFields_eq_error h
  exact ⟨field, List.mem_append_right _ List.mem_cons_self, herror⟩

/-- The names of the mutations of an object type. -/
theorem map_name_mutationFields (type : TypeDef) :
    (mutationFields type).map (·.name) = mutationNames type.name := rfl

/-- The names of the queries of an object type. -/
theorem map_name_queryFields (type : TypeDef) :
    (queryFields schema type).map (·.name) = queryNames type.name := rfl

namespace Extended

variable {extended : Schema} {added : List (String × FieldDef)} {types : List TypeDef}

section Root

variable {declared : TypeDef → List FieldDef} {names : String → List String}
  (hnames : ∀ type, (declared type).map (·.name) = names type.name) {root : TypeDef}

include hnames

/-- **Adding the fields of all object types to a root** succeeds when their names are distinct and
free. -/
theorem addRootFields_flatMap_eq_ok_iff (h : Extended schema extended added types)
    {result : TypeDef} :
    addRootFields root (types.flatMap declared) = .ok result ↔
      (schema.userObjects.flatMap fun type => names type.name).Nodup ∧
      (∀ type ∈ schema.userObjects, ∀ name ∈ names type.name, root.hasField name = false) ∧
      result = root.pushFields (types.flatMap declared) := by
  have hall : (types.flatMap declared).map (·.name) =
      schema.userObjects.flatMap fun type => names type.name := by
    rw [h.types_eq, List.map_flatMap, List.flatMap_map]
    exact List.flatMap_congr fun type _ => hnames _
  have hfree : (∀ field ∈ types.flatMap declared, root.hasField field.name = false) ↔
      ∀ name ∈ schema.userObjects.flatMap fun type => names type.name,
        root.hasField name = false := by
    rw [← hall, List.forall_mem_map]
  rw [addRootFields_eq_ok_iff, hall, hfree, List.forall_mem_flatMap]

/-- Where it fails although the names are distinct, the root has one of them. -/
theorem not_free_of_addRootFields_eq_error (h : Extended schema extended added types)
    {error : GenerationError} (hfail : addRootFields root (types.flatMap declared) = .error error)
    (hnodup : (schema.userObjects.flatMap fun type => names type.name).Nodup) :
    ¬ ∀ type ∈ schema.userObjects, ∀ name ∈ names type.name, root.hasField name = false := by
  intro hfree
  have hok := (h.addRootFields_flatMap_eq_ok_iff hnames).mpr ⟨hnodup, hfree, rfl⟩
  cases hok.symm.trans hfail

end Root

/-- The names of the input types are free. -/
theorem inputTypeName_notMem_keys (h : Extended schema extended added types) {type : TypeDef}
    (htype : type ∈ schema.userObjects) : inputTypeName type.name ∉ schema.types.keys := by
  have hkeys : extended.types.keys.Nodup := extended.types.nodup_keys
  rw [h.keys_eq, List.append_assoc] at hkeys
  intro hmem
  refine List.disjoint_of_nodup_append hkeys hmem (List.mem_append_right _ ?_)
  exact List.mem_map_of_mem (f := fun type => inputTypeName type.name) htype

/-- No type declares a field with the name of a relation that it gets. -/
theorem hasField_relationName (h : Extended schema extended added types) (hkeyed : schema.Keyed)
    (hfree : ∀ name ∈ mutationResults, name ∉ schema.types.keys) {owner referenced : TypeDef}
    (howner : owner ∈ schema.userObjects) (hreferenced : referenced ∈ schema.userObjects)
    (hrefers : owner.RefersTo referenced.name) :
    referenced.hasField (relationName owner.name referenced.name) = false := by
  have hrelation : (referenced.name, relationField owner.name referenced.name) ∈
      Augment.relations (addResultScalars schema) schema.userObjects :=
    (mem_relations_iff hkeyed hfree).mpr
      ⟨owner, howner, referenced, hreferenced, hrefers, rfl⟩
  -- The relation itself may have been left out, but then another one has its name.
  obtain ⟨entry, hentry, hsame⟩ := List.mem_map.mp (h.relations.exists_added _ hrelation)
  obtain ⟨hkey, hrelationName⟩ := Prod.mk.inj hsame
  obtain ⟨type, hget, hnew⟩ := h.relations.hasField_eq_false entry hentry
  have hmarked := get?_addResultScalars hfree (get?_of_mem_userObjects hkeyed hreferenced)
  rw [hkey, hmarked] at hget
  obtain rfl := Option.some.inj hget
  rwa [hrelationName] at hnew

end Extended

/-! ### Augmentation as a whole -/

/-- The pass in which augmentation fails, in the schema that the passes before it lead to. -/
inductive Failure (schema : Schema) (error : GenerationError) : Prop where
  /-- An object type refers to a type that does not exist. -/
  | references (h : requireReferences schema schema.userObjects = .error error)
  /-- A relation field cannot be added. -/
  | relations (hresolved : Resolved schema)
      (h : addRelations (addResultScalars schema)
        (relations (addResultScalars schema) schema.userObjects) = .error error)
  /-- An input type cannot be added. -/
  | inputs {related : Schema} {log : List (String × String)} (hresolved : Resolved schema)
      (hrelated : addRelations (addResultScalars schema)
        (relations (addResultScalars schema) schema.userObjects) = .ok (related, log))
      (h : addInputs related (schema.userObjects.map (·.name)) = .error error)
  /-- A mutation cannot be added. -/
  | mutations {extended : Schema} {added : List (String × FieldDef)} {types : List TypeDef}
      (hresolved : Resolved schema) (hextended : Extended schema extended added types)
      (h : addRootFields extended.mutation (types.flatMap mutationFields) = .error error)
  /-- A query cannot be added. -/
  | queries {extended : Schema} {added : List (String × FieldDef)} {types : List TypeDef}
      (hresolved : Resolved schema) (hextended : Extended schema extended added types)
      (h : addRootFields extended.query (types.flatMap (queryFields extended)) = .error error)

section

variable (hkeyed : schema.Keyed) (hfree : ∀ name ∈ mutationResults, name ∉ schema.types.keys)

include hkeyed hfree

/-- A schema that has been augmented meets both conditions. -/
theorem resolved_and_collisionFree {result : Augmentation} (h : augment schema = .ok result) :
    Resolved schema ∧ CollisionFree schema := by
  obtain ⟨hrefs, related, log, extended, types, mutation, query, hrelated, hinputs, hmutation,
    hquery, -⟩ := augment_eq_ok_iff.mp h
  obtain ⟨added, hextended, -⟩ := exists_extended hkeyed hfree hrelated hinputs
  rw [hextended.mutation_eq,
    hextended.addRootFields_flatMap_eq_ok_iff map_name_mutationFields] at hmutation
  rw [hextended.query_eq,
    hextended.addRootFields_flatMap_eq_ok_iff map_name_queryFields] at hquery
  obtain ⟨hnodupMutations, hmutations, -⟩ := hmutation
  obtain ⟨hnodupQueries, hqueries, -⟩ := hquery
  exact ⟨requireReferences_eq_ok_iff.mp hrefs,
    { relations := fun owner howner referenced hreferenced hrefers =>
        hextended.hasField_relationName hkeyed hfree howner hreferenced hrefers
      inputTypes := fun type htype => hextended.inputTypeName_notMem_keys htype
      nodup_mutations := hnodupMutations
      mutations := hmutations
      nodup_queries := hnodupQueries
      queries := hqueries }⟩

/-- Augmentation fails in one of its passes. -/
theorem failure_of_augment_eq_error {error : GenerationError} (h : augment schema = .error error) :
    Failure schema error := by
  rw [augment] at h
  rcases bind_eq_error_iff.mp h with h | ⟨⟨⟩, hrefs, h⟩
  · exact .references h
  have hresolved := requireReferences_eq_ok_iff.mp hrefs
  rcases bind_eq_error_iff.mp h with h | ⟨⟨related, log⟩, hrelated, h⟩
  · exact .relations hresolved h
  rcases bind_eq_error_iff.mp h with h | ⟨⟨extended, types⟩, hinputs, h⟩
  · exact .inputs hresolved hrelated h
  obtain ⟨added, hextended, -⟩ := exists_extended hkeyed hfree hrelated hinputs
  rcases bind_eq_error_iff.mp h with h | ⟨mutation, -, h⟩
  · exact .mutations hresolved hextended h
  · exact .queries hresolved hextended (eq_error_of_bind_pure h)

/-- **Why augmentation fails**: an object type refers to a type that does not exist, or else a
name that is synthesized is not free. -/
theorem cause_of_augment_eq_error {error : GenerationError} (h : augment schema = .error error) :
    ¬ Resolved schema ∧ error.kind = "SchemaConsistency" ∨
      Resolved schema ∧ ¬ CollisionFree schema ∧ error.kind = "NamingCollision" := by
  cases failure_of_augment_eq_error hkeyed hfree h with
  | references h =>
      obtain ⟨entry, hentry, hmissing, rfl⟩ := exists_of_requireReferences_eq_error h
      exact Or.inl ⟨fun hresolved => hmissing (resolved_iff.mp hresolved entry hentry), rfl⟩
  | relations hresolved h =>
      obtain ⟨relation, hrelation, type, hget, hfield, rfl⟩ :=
        exists_of_addRelations_eq_error (fst_mem_keys_of_mem_relations hkeyed hfree) h
      obtain ⟨owner, howner, referenced, hreferenced, hrefers, rfl⟩ :=
        (mem_relations_iff hkeyed hfree).mp hrelation
      refine Or.inr ⟨hresolved, fun hcollision => ?_, rfl⟩
      have hmarked := get?_addResultScalars hfree (get?_of_mem_userObjects hkeyed hreferenced)
      obtain rfl := Option.some.inj (hmarked.symm.trans hget)
      have hnew := hcollision.hasField_relationName howner hreferenced hrefers
      exact Bool.false_ne_true (hnew.symm.trans hfield)
  | inputs hresolved hrelated h =>
      obtain ⟨added, -, rfl, -⟩ := exists_relationsAdded hrelated
      obtain ⟨name, hname, htaken, rfl⟩ := exists_of_addInputs_eq_error
        (keyed_withFields (keyed_addResultScalars hkeyed hfree) added)
        (nodup_name_userObjects hkeyed)
        (name_mem_keys_withFields hkeyed hfree added) h
      obtain ⟨type, htype, rfl⟩ := List.mem_map.mp hname
      refine Or.inr ⟨hresolved, fun hcollision => ?_, rfl⟩
      rw [TypeMap.keys_withFields, TypeMap.keys, (entries_addResultScalars hfree).1,
        List.map_append, List.mem_append] at htaken
      rcases htaken with hold | hmarker
      · exact hcollision.inputTypeName_notMem_keys htype hold
      · exact inputTypeName_notMem (by decide) type.name hmarker
  | mutations hresolved hextended h =>
      obtain ⟨field, -, rfl⟩ := exists_of_addRootFields_eq_error h
      rw [hextended.mutation_eq] at h
      exact Or.inr ⟨hresolved, fun hcollision =>
        hextended.not_free_of_addRootFields_eq_error map_name_mutationFields h
          hcollision.nodup_mutations hcollision.mutations, rfl⟩
  | queries hresolved hextended h =>
      obtain ⟨field, -, rfl⟩ := exists_of_addRootFields_eq_error h
      rw [hextended.query_eq] at h
      exact Or.inr ⟨hresolved, fun hcollision =>
        hextended.not_free_of_addRootFields_eq_error map_name_queryFields h
          hcollision.nodup_queries hcollision.queries, rfl⟩

/-- **When augmentation succeeds**: what object types refer to exists, and the names of what is
synthesized are distinct and free. -/
theorem exists_augment_eq_ok_iff :
    (∃ result, augment schema = .ok result) ↔ Resolved schema ∧ CollisionFree schema := by
  constructor
  · rintro ⟨result, h⟩
    exact resolved_and_collisionFree hkeyed hfree h
  · rintro ⟨hresolved, hcollision⟩
    cases h : augment schema with
    | ok result => exact ⟨result, rfl⟩
    | error error =>
        rcases cause_of_augment_eq_error hkeyed hfree h with ⟨hnot, -⟩ | ⟨-, hnot, -⟩
        · exact absurd hresolved hnot
        · exact absurd hcollision hnot

end

end Augment

open Augment in
/-- **The outcome of augmentation.** In a keyed schema in which the names of the markers are free,
augmentation succeeds exactly when what object types refer to exists and the names of what is
synthesized are distinct and free. A missing type is reported as such, whatever the names are; a
collision is reported where no type is missing. -/
theorem augment_outcome {schema : Schema} (hkeyed : schema.Keyed)
    (hfree : ∀ name ∈ mutationResults, name ∉ schema.types.keys) :
    ((∃ result, augment schema = .ok result) ↔ Resolved schema ∧ CollisionFree schema) ∧
    (¬ Resolved schema →
      ∃ error, augment schema = .error error ∧ error.kind = "SchemaConsistency") ∧
    (Resolved schema → ¬ CollisionFree schema →
      ∃ error, augment schema = .error error ∧ error.kind = "NamingCollision") := by
  have hiff := exists_augment_eq_ok_iff hkeyed hfree
  refine ⟨hiff, fun hnot => ?_, fun hresolved hnot => ?_⟩
  · cases h : augment schema with
    | ok result => exact absurd (hiff.mp ⟨result, h⟩).1 hnot
    | error error =>
        rcases cause_of_augment_eq_error hkeyed hfree h with ⟨-, hkind⟩ | ⟨hresolved, -, -⟩
        · exact ⟨error, rfl, hkind⟩
        · exact absurd hresolved hnot
  · cases h : augment schema with
    | ok result => exact absurd (hiff.mp ⟨result, h⟩).2 hnot
    | error error =>
        rcases cause_of_augment_eq_error hkeyed hfree h with ⟨hmissing, -⟩ | ⟨-, -, hkind⟩
        · exact absurd hresolved hmissing
        · exact ⟨error, rfl, hkind⟩

/-- A schema in which two types refer to a third one, and have one plural. -/
def laboratorySchema : Schema where
  types := .ofList (standardScalars.map .givenScalar ++
    [{ name := "Lab", fields := [{ name := "city", type := .named "String" false }] },
     { name := "Analysis", fields := [{ name := "lab", type := .named "Lab" true }] },
     { name := "Analyse", fields := [{ name := "lab", type := .named "Lab" true }] }])
  query := { name := "Query" }
  mutation := { name := "Mutation" }

open Augment in
/-- The relation of the second type is left out without an error, but the queries collide. -/
theorem augment_outcome_laboratory :
    laboratorySchema.Keyed ∧ (∀ name ∈ mutationResults, name ∉ laboratorySchema.types.keys) ∧
    Resolved laboratorySchema ∧ ¬ CollisionFree laboratorySchema ∧
    ∃ error, augment laboratorySchema = .error error ∧ error.kind = "NamingCollision" := by
  have hkeyed : laboratorySchema.Keyed := by decide
  have hfree : ∀ name ∈ mutationResults, name ∉ laboratorySchema.types.keys := by decide
  have hresolved : Resolved laboratorySchema := by decide
  have hcollision : ¬ CollisionFree laboratorySchema := by decide
  exact ⟨hkeyed, hfree, hresolved, hcollision,
    (augment_outcome hkeyed hfree).2.2 hresolved hcollision⟩

end ClientSdk
