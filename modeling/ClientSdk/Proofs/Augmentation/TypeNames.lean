import ClientSdk.Proofs.Augmentation.Written
import Mathlib

/-!
# Which Names of Types Collide

Augmentation looks for the names of input types among the types of the schema. It does not look
at the roots, which are kept apart from the types, nor for the markers under the names that they
have in schema text. So a schema can be augmented although its text then declares a name twice;
this happens exactly when a root or a type is called in one of these ways, or when both roots have
one name and mutations are declared.

## Main definitions

* `Augment.synthesizedNames`: the names of the types that are added, as schema text has them.
* `Augment.TypeNamesFree`: no type that schema text declares has one of them.

## Main results

* `Augment.Appended.nodup_nameInSdl_iff`: when names are distinct after augmentation.
* `augment_declares_distinct_iff`: which names lead to collisions, and which collisions are found.
-/

namespace ClientSdk

open Token

namespace Augment

variable {schema : Schema}

/-- The names of the markers and of the input types, as they are written in schema text. -/
def synthesizedNames (schema : Schema) : List String :=
  mutationResults.map nameInSdl ++ schema.userObjects.map fun object => inputTypeName object.name

/-- The names of the types that are added are free, those of the roots included, and the roots can
be told apart. -/
structure TypeNamesFree (schema : Schema) : Prop where
  /-- No type has the name of a type that is added. -/
  types : ∀ type ∈ schema.ownTypes, type.name ∉ synthesizedNames schema
  /-- Nor does the root of queries. -/
  query : schema.query.name ∉ synthesizedNames schema
  /-- Where mutations are declared or added, their root has a name of its own. -/
  mutation : schema.hasMutations = true ∨ schema.userObjects ≠ [] →
    schema.mutation.name ∉ synthesizedNames schema ∧ schema.query.name ≠ schema.mutation.name

/-- A name is none of those of the types that are added. -/
theorem notMem_synthesizedNames {name : String} :
    name ∉ synthesizedNames schema ↔ name ∉ mutationResults.map nameInSdl ∧
      ∀ object ∈ schema.userObjects, inputTypeName object.name ≠ name := by
  rw [synthesizedNames, List.mem_append, not_or]
  refine and_congr_right fun _ => ?_
  rw [List.mem_map]
  push Not
  rfl

namespace Appended

variable {result : Augmentation} {added : List (String × FieldDef)} {types : List TypeDef}
  (h : Appended schema result added types)

include h

/-- **When no type has the name of a root after augmentation**: no input type has it. -/
theorem ownTypes_ne_roots_iff (hloaded : schema.Loaded) :
    (∀ type ∈ result.schema.ownTypes, type.name ≠ schema.query.name ∧
        (result.schema.hasMutations = true → type.name ≠ schema.mutation.name)) ↔
      (∀ object ∈ schema.userObjects, inputTypeName object.name ≠ schema.query.name) ∧
      (result.schema.hasMutations = true →
        ∀ object ∈ schema.userObjects, inputTypeName object.name ≠ schema.mutation.name) := by
  have hown : ∀ old ∈ schema.ownTypes,
      old.name ≠ schema.query.name ∧ old.name ≠ schema.mutation.name :=
    fun old hold => (hloaded.isDeclared_of_mem_ownTypes hold).2
  rw [forall₂_and, h.ownTypes_ne_iff hloaded.keyed hloaded.roots.1.name fun old hold =>
      (hown old hold).1, ← h.ownTypes_ne_iff hloaded.keyed hloaded.roots.2.name fun old hold =>
      (hown old hold).2]
  exact and_congr_right fun _ => ⟨fun hne hmutations type htype => hne type htype hmutations,
    fun hne type htype hmutations => hne hmutations type htype⟩

/-- **When names are distinct after augmentation**: the names of the types that are added are
free. -/
theorem nodup_nameInSdl_iff (hloaded : schema.Loaded) (hcollision : CollisionFree schema) :
    (result.schema.declaredTypes.map fun type => nameInSdl type.name).Nodup ↔
      TypeNamesFree schema := by
  have hmarkers : ∀ name ∈ mutationResults, .givenScalar name ∈ result.schema.declaredTypes :=
    fun name hname => Schema.mem_declaredTypes_iff.mpr
      (Or.inl ((h.mem_ownTypes_iff hloaded.keyed).mpr (Or.inr (Or.inl ⟨name, hname, rfl⟩))))
  have hquery : result.schema.query.name = schema.query.name := by
    rw [h.query_eq]
    rfl
  have hmutation : result.schema.mutation.name = schema.mutation.name := by
    rw [h.mutation_eq]
    rfl
  rw [(h.isWritable hloaded).nodup_nameInSdl_iff (h.keyed hloaded.keyed) hmarkers, hquery,
    hmutation, h.unmarked_iff hloaded.keyed, h.ownTypes_ne_roots_iff hloaded]
  constructor
  · rintro ⟨⟨htypes, hqueryMarker, hmutationMarker⟩, hinputs, hroots⟩
    refine ⟨fun type htype => ?_, ?_, fun hmutations => ?_⟩
    · refine notMem_synthesizedNames.mpr ⟨htypes type htype, fun object hobject hsame => ?_⟩
      refine hcollision.inputTypeName_notMem_keys hobject ?_
      rw [hsame]
      exact hloaded.keyed.name_mem_keys (List.mem_filter.mp htype).1
    · exact notMem_synthesizedNames.mpr ⟨hqueryMarker, hinputs.1⟩
    · have hdeclared := h.hasMutations_iff.mpr hmutations
      exact ⟨notMem_synthesizedNames.mpr ⟨hmutationMarker hdeclared,
        hinputs.2 hdeclared⟩, hroots hdeclared⟩
  · rintro ⟨htypes, hquery, hmutation⟩
    rw [notMem_synthesizedNames] at hquery
    have hdeclared := fun hmutations => hmutation (h.hasMutations_iff.mp hmutations)
    refine ⟨⟨fun type htype => (notMem_synthesizedNames.mp (htypes type htype)).1, hquery.1,
      fun hmutations => (notMem_synthesizedNames.mp (hdeclared hmutations).1).1⟩,
      ⟨hquery.2, fun hmutations => (notMem_synthesizedNames.mp (hdeclared hmutations).1).2⟩,
      fun hmutations => (hdeclared hmutations).2⟩

end Appended

end Augment

open Augment in
/-- **Which names of types collide after augmentation.** Let a schema be read from a text. If it can
be augmented, the types that its text then declares have distinct names exactly when the names of
the types that are added are free and the roots can be told apart. Of the names that are not free
only those of input types that are types of the schema are found: augmentation then fails, with a
collision unless a type is missing. -/
theorem augment_declares_distinct_iff {text : String} {schema : Schema}
    (hload : Schema.ofText text = .ok schema) :
    (∀ result, augment schema = .ok result →
      ((result.schema.declaredTypes.map fun type => nameInSdl type.name).Nodup ↔
        TypeNamesFree schema)) ∧
    ((∃ object ∈ schema.userObjects, inputTypeName object.name ∈ schema.types.keys) →
      ∃ error, augment schema = .error error ∧
        (error.kind = "NamingCollision" ↔ Resolved schema)) := by
  have hloaded := Schema.loaded_of_ofText hload
  refine ⟨fun result haugment => ?_, ?_⟩
  · obtain ⟨added, types, happended⟩ :=
      exists_appended hloaded.keyed hloaded.notMem_keys haugment
    obtain ⟨-, hcollision⟩ :=
      resolved_and_collisionFree hloaded.keyed hloaded.notMem_keys haugment
    exact happended.nodup_nameInSdl_iff hloaded hcollision
  · rintro ⟨object, hobject, htaken⟩
    have hnot : ¬CollisionFree schema := fun hcollision =>
      hcollision.inputTypeName_notMem_keys hobject htaken
    cases haugment : augment schema with
    | ok result =>
        exact absurd (resolved_and_collisionFree hloaded.keyed hloaded.notMem_keys haugment).2 hnot
    | error error =>
        refine ⟨error, rfl, ?_⟩
        rcases cause_of_augment_eq_error hloaded.keyed hloaded.notMem_keys haugment with
          ⟨hmissing, hkind⟩ | ⟨hresolved, -, hkind⟩
        · refine iff_of_false (fun hcollision => ?_) hmissing
          rw [hkind] at hcollision
          exact absurd hcollision (by decide)
        · exact iff_of_true hkind hresolved

/-- A schema of one object type. -/
def novelSchema : Schema where
  types := .ofList (standardScalars.map .givenScalar ++
    [{ name := "Novel", fields := [{ name := "title", type := .named "String" true }] }])
  query := { name := "Query", fields := [{ name := "version", type := .named "Int" true }] }
  mutation := { name := "Mutation" }

/-- The schema as it is declared. -/
def novelText : String := "type Query { version: Int } type Novel { title: String }"

set_option maxRecDepth 2000 in
theorem ofText_novelText : Schema.ofText novelText = .ok novelSchema := by cbv

/-- The schema with a type that is called like the input type of the other one. -/
def novelDataSchema : Schema where
  types := .ofList (standardScalars.map .givenScalar ++
    [{ name := "Novel", fields := [{ name := "title", type := .named "String" true }] },
     { name := "Novel_Data", fields := [{ name := "pages", type := .named "Int" true }] }])
  query := { name := "Query", fields := [{ name := "version", type := .named "Int" true }] }
  mutation := { name := "Mutation" }

/-- That schema as it is declared. -/
def novelDataText : String := novelText ++ " type Novel_Data { pages: Int }"

set_option maxRecDepth 2000 in
theorem ofText_novelDataText : Schema.ofText novelDataText = .ok novelDataSchema := by cbv

open Augment in
/-- The names of a schema with one type stay distinct. Another type that is called like its input
type is found. -/
theorem augment_declares_distinct_iff_novel :
    (∃ schema result, Schema.ofText novelText = .ok schema ∧ augment schema = .ok result ∧
      TypeNamesFree schema ∧
      (result.schema.declaredTypes.map fun type => nameInSdl type.name).Nodup) ∧
    ∃ schema error, Schema.ofText novelDataText = .ok schema ∧ Resolved schema ∧
      augment schema = .error error ∧ error.kind = "NamingCollision" := by
  have hloaded := Schema.loaded_of_ofText ofText_novelText
  have hnames : TypeNamesFree novelSchema := ⟨by decide, by decide, fun _ => by decide⟩
  obtain ⟨result, haugment⟩ := (exists_augment_eq_ok_iff hloaded.keyed
    hloaded.notMem_keys).mpr ⟨by decide, by decide⟩
  have hresolved : Resolved novelDataSchema := by decide
  obtain ⟨error, hfail, hkind⟩ := (augment_declares_distinct_iff ofText_novelDataText).2 (by decide)
  exact
    ⟨⟨_, result, ofText_novelText, haugment, hnames,
        ((augment_declares_distinct_iff ofText_novelText).1 result haugment).mpr hnames⟩,
      _, error, ofText_novelDataText, hresolved, hfail, hkind.mpr hresolved⟩

/-- A schema whose root of queries is called like the input type of its object type. -/
def movieDataSchema : Schema where
  types := .ofList (standardScalars.map .givenScalar ++
    [{ name := "Movie", fields := [{ name := "title", type := .named "String" true }] }])
  query := { name := "Movie_Data", fields := [{ name := "version", type := .named "Int" true }] }
  mutation := { name := "Mutation" }

/-- The schema as it is declared. -/
def movieDataText : String :=
  "schema { query: Movie_Data } type Movie_Data { version: Int } type Movie { title: String }"

set_option maxRecDepth 2000 in
theorem ofText_movieDataText : Schema.ofText movieDataText = .ok movieDataSchema := by cbv

open Augment in
/-- **A root that is called like an input type is not found**: the schema is augmented, and its text
declares the name twice. -/
theorem augment_declares_twice_movieData :
    ∃ schema result, Schema.ofText movieDataText = .ok schema ∧
      schema.userObjects.map (inputTypeName ·.name) = [schema.query.name] ∧
      augment schema = .ok result ∧
      ¬(result.schema.declaredTypes.map fun type => nameInSdl type.name).Nodup := by
  have hloaded := Schema.loaded_of_ofText ofText_movieDataText
  obtain ⟨result, haugment⟩ := (exists_augment_eq_ok_iff hloaded.keyed
    hloaded.notMem_keys).mpr ⟨by decide, by decide⟩
  obtain ⟨added, types, happended⟩ := exists_appended hloaded.keyed hloaded.notMem_keys haugment
  have htaken : movieDataSchema.query.name ∈ synthesizedNames movieDataSchema := by decide
  refine ⟨_, result, ofText_movieDataText, rfl, haugment, fun hnodup => ?_⟩
  exact ((happended.nodup_nameInSdl_iff hloaded (by decide)).mp hnodup).query htaken

end ClientSdk
