import ClientSdk.Proofs.Augmentation.Names
import ClientSdk.Proofs.Schema.Sealing

/-!
# What the Text of an Augmented Schema Declares

The text of an augmented schema declares the types of the schema with their relation fields, the
markers, the input types and the roots. Their names can be written, and they stay distinct where
they are written, since only markers change their names there.

## Main definitions

* `Augment.Ready`: a schema that has been read, is valid and can be augmented.

## Main results

* `Augment.Appended.isWritable`: the names after augmentation can be written.
* `Augment.Appended.mem_ownTypes_iff`: the types that the text declares beside the roots.
* `Augment.Appended.unmarked_iff`: when none of them has the name that a marker has in the text.
* `Augment.Appended.name_eq_of_nameInSdl_eq`: different types have different names in the text.
-/

namespace ClientSdk

open Token

namespace Schema

variable {schema : Schema}

/-! ### Schemas that have been read -/

/-- What schema text declares is declared in the schema. -/
theorem mem_declarations_of_mem_declaredTypes {type : TypeDef} (h : type ∈ schema.declaredTypes) :
    type ∈ schema.declarations := by
  rcases mem_values_or_root_of_mem_declaredTypes h with hvalue | rfl | rfl
  · exact List.mem_append_right [schema.query, schema.mutation] hvalue
  · exact List.mem_cons_self
  · exact List.mem_cons_of_mem _ List.mem_cons_self

namespace Loaded

variable (h : schema.Loaded)

include h

/-- The names of a schema that has been read can be written. -/
theorem isWritable : schema.IsWritable :=
  ⟨h.roots.1.name, h.roots.2.name, fun _ htype =>
    (h.goesBy (mem_declarations_of_mem_declaredTypes htype)).mono fun _ hname => Or.inl hname⟩

/-- The types of the text are declared by the document that has been read, and they are no
roots. -/
theorem isDeclared_of_mem_ownTypes {type : TypeDef} (htype : type ∈ schema.ownTypes) :
    type.IsDeclared ∧ type.name ≠ schema.query.name ∧ type.name ≠ schema.mutation.name := by
  obtain ⟨hvalue, hnot⟩ := List.mem_filter.mp htype
  rcases h.values type hvalue with ⟨hstandard, heq⟩ | hdeclared
  · have hscalar : type.isScalar = true := by
      rw [heq]
      rfl
    rw [hscalar, isStandardScalar, List.contains_iff_mem.mpr hstandard] at hnot
    cases hnot
  · exact hdeclared

/-- In a valid schema no field is declared twice. -/
theorem distinctFields (hseals : schema.Seals) : schema.DistinctFields := by
  have hempty : ∀ type : TypeDef, type.fields = [] → type.DistinctFields := by
    intro type hfields
    rw [TypeDef.DistinctFields, hfields]
    exact List.nodup_nil
  have hroots := hseals.kind_roots h.isWritable
  refine List.forall_mem_cons.mpr ⟨?_, List.forall_mem_cons.mpr ⟨?_, fun type htype => ?_⟩⟩
  · exact hseals.distinct.fields _ query_mem_declaredTypes (by simp [hroots.1])
  · cases hmutations : schema.hasMutations with
    | false => exact hempty _ (by simpa [hasMutations] using hmutations)
    | true =>
        exact hseals.distinct.fields _ (mutation_mem_declaredTypes hmutations)
          (by simp [hroots.2 hmutations])
  · rcases h.values type htype with ⟨-, heq⟩ | ⟨hdeclared, -⟩
    · exact hempty _ (by rw [heq]; rfl)
    · refine hseals.distinct.fields type (mem_declaredTypes_of_mem_values htype ?_) hdeclared.kind
      exact beq_eq_false_iff_ne.mpr hdeclared.kind

end Loaded

end Schema

namespace Augment

variable {schema : Schema}

/-! ### Schemas that can be augmented -/

/-- A schema that has been read, is valid and can be augmented. No type has the name that a marker
has in schema text. -/
structure Ready (schema : Schema) : Prop where
  /-- The schema has been read. -/
  loaded : schema.Loaded
  /-- It is valid. -/
  seals : schema.Seals
  /-- What object types refer to exists. -/
  resolved : Resolved schema
  /-- The names of what is synthesized are distinct and free. -/
  collisionFree : CollisionFree schema
  /-- The names of the markers are free in schema text. -/
  unmarked : ∀ type ∈ schema.declarations, type.name ∉ mutationResults.map nameInSdl

namespace Appended

variable {result : Augmentation} {added : List (String × FieldDef)} {types : List TypeDef}
  (h : Appended schema result added types)

include h

/-! ### Declared types -/

/-- The names after augmentation can be written. -/
theorem isWritable (hloaded : schema.Loaded) : result.schema.IsWritable := by
  refine ⟨?_, ?_, fun _ htype =>
    h.goesBy hloaded (Schema.mem_declarations_of_mem_declaredTypes htype)⟩
  · rw [h.query_eq]
    exact hloaded.roots.1.name
  · rw [h.mutation_eq]
    exact hloaded.roots.2.name

/-- **What the text declares after augmentation** beside the roots: the types of the schema with
their relation fields, the markers and the input types. -/
theorem mem_ownTypes_iff (hkeyed : schema.Keyed) {type : TypeDef} :
    type ∈ result.schema.ownTypes ↔
      (∃ old ∈ schema.ownTypes, type = old.pushFields (TypeMap.addedTo added old.name)) ∨
      (∃ name ∈ mutationResults, type = .givenScalar name) ∨
      ∃ object ∈ schema.userObjects, type = inputType (schema.userObjects.map (·.name))
        (object.pushFields (TypeMap.addedTo added object.name)) := by
  have hmarkers : ∀ name ∈ mutationResults, isStandardScalar name = false := by decide
  constructor
  · intro htype
    obtain ⟨hvalue, hkept⟩ := List.mem_filter.mp htype
    obtain ⟨old, hold, rfl⟩ | hmarker | hinput := h.mem_values hkeyed hvalue
    · exact Or.inl ⟨old, List.mem_filter.mpr ⟨hold, hkept⟩, rfl⟩
    · exact Or.inr (Or.inl hmarker)
    · exact Or.inr (Or.inr hinput)
  · intro htype
    rw [Schema.ownTypes, h.values_eq hkeyed, List.mem_filter]
    rcases htype with ⟨old, hold, rfl⟩ | ⟨name, hname, rfl⟩ | ⟨object, hobject, rfl⟩
    · obtain ⟨hvalue, hkept⟩ := List.mem_filter.mp hold
      exact ⟨List.mem_append_left _ (List.mem_map_of_mem hvalue), hkept⟩
    · refine ⟨List.mem_append_right _ (List.mem_append_left _ (List.mem_map_of_mem hname)), ?_⟩
      have hkept := hmarkers name hname
      rw [TypeDef.givenScalar, hkept, Bool.and_false, Bool.not_false]
    · exact ⟨List.mem_append_right _ (List.mem_append_right _ (List.mem_map_of_mem hobject)), rfl⟩

/-- There are mutations after augmentation if there were any, or if there are object types. -/
theorem hasMutations_iff : result.schema.hasMutations = true ↔
    schema.hasMutations = true ∨ schema.userObjects ≠ [] := by
  have hmutations : types.flatMap mutationFields = [] ↔ schema.userObjects = [] := by
    rw [h.types_eq, List.flatMap_map, List.flatMap_eq_nil_iff]
    constructor
    · intro hnil
      refine List.eq_nil_iff_forall_not_mem.mpr fun object hobject => ?_
      cases hnil object hobject
    · intro hnil
      rw [hnil]
      exact fun _ hmem => absurd hmem List.not_mem_nil
  rw [Schema.hasMutations, Schema.hasMutations, h.mutation_eq, TypeDef.pushFields]
  simp only [Bool.not_eq_true', ← Bool.not_eq_true, List.isEmpty_iff, List.append_eq_nil_iff,
    hmutations]
  exact not_and_or

/-! ### Distinct names -/

/-- **When no type has a name that is none of theirs before augmentation**: no input type has it. -/
theorem ownTypes_ne_iff (hkeyed : schema.Keyed) {name : String} (hname : isName name = true)
    (hown : ∀ type ∈ schema.ownTypes, type.name ≠ name) :
    (∀ type ∈ result.schema.ownTypes, type.name ≠ name) ↔
      ∀ object ∈ schema.userObjects, inputTypeName object.name ≠ name := by
  constructor
  · intro hne object hobject
    exact hne _ ((h.mem_ownTypes_iff hkeyed).mpr (Or.inr (Or.inr ⟨object, hobject, rfl⟩)))
  · intro hne type htype
    rcases (h.mem_ownTypes_iff hkeyed).mp htype with
      ⟨old, hold, rfl⟩ | ⟨marker, hmarker, rfl⟩ | ⟨object, hobject, rfl⟩
    · exact hown old hold
    · rintro rfl
      cases (isName_of_mem_mutationResults hmarker).symm.trans hname
    · exact hne object hobject

/-- **When nothing that the text declares** has the name that a marker has there: no type of the
schema has it, and no root that is declared. -/
theorem unmarked_iff (hkeyed : schema.Keyed) :
    (∀ type ∈ result.schema.declaredTypes, type.name ∉ mutationResults.map nameInSdl) ↔
      (∀ type ∈ schema.ownTypes, type.name ∉ mutationResults.map nameInSdl) ∧
      schema.query.name ∉ mutationResults.map nameInSdl ∧
      (result.schema.hasMutations = true →
        schema.mutation.name ∉ mutationResults.map nameInSdl) := by
  constructor
  · intro hunmarked
    refine ⟨fun old hold => ?_, ?_, fun hmutations => ?_⟩
    · exact hunmarked (old.pushFields (TypeMap.addedTo added old.name))
        (Schema.mem_declaredTypes_iff.mpr
          (Or.inl ((h.mem_ownTypes_iff hkeyed).mpr (Or.inl ⟨old, hold, rfl⟩))))
    · have hquery := hunmarked _ Schema.query_mem_declaredTypes
      rwa [h.query_eq] at hquery
    · have hmutation := hunmarked _ (Schema.mutation_mem_declaredTypes hmutations)
      rwa [h.mutation_eq] at hmutation
  · rintro ⟨hown, hquery, hmutation⟩ type htype
    rcases Schema.mem_declaredTypes_iff.mp htype with hmem | rfl | ⟨hmutations, rfl⟩
    · rcases (h.mem_ownTypes_iff hkeyed).mp hmem with
        ⟨old, hold, rfl⟩ | ⟨name, hname, rfl⟩ | ⟨object, hobject, rfl⟩
      · exact hown old hold
      · have hmarkers : ∀ name ∈ mutationResults, name ∉ mutationResults.map nameInSdl := by decide
        exact hmarkers name hname
      · exact inputTypeName_notMem (by decide) object.name
    · rw [h.query_eq]
      exact hquery
    · rw [h.mutation_eq]
      exact hmutation hmutations

/-- Nothing that the text declares has the name that a marker has there. -/
theorem name_notMem_markers (hready : Ready schema) {type : TypeDef}
    (htype : type ∈ result.schema.declaredTypes) :
    type.name ∉ mutationResults.map nameInSdl := by
  refine (h.unmarked_iff hready.loaded.keyed).mpr ⟨fun old hold => ?_, ?_, fun _ => ?_⟩ type htype
  · exact hready.unmarked old
      (List.mem_append_right [schema.query, schema.mutation] (List.mem_filter.mp hold).1)
  · exact hready.unmarked schema.query List.mem_cons_self
  · exact hready.unmarked schema.mutation (List.mem_cons_of_mem _ List.mem_cons_self)

/-- **Types with one name in the text** have one name. -/
theorem name_eq_of_nameInSdl_eq (hready : Ready schema) {first second : TypeDef}
    (hfirst : first ∈ result.schema.declaredTypes) (hsecond : second ∈ result.schema.declaredTypes)
    (heq : nameInSdl first.name = nameInSdl second.name) : first.name = second.name :=
  (h.isWritable hready.loaded).name_eq_of_nameInSdl_eq
    (fun _ htype => h.name_notMem_markers hready htype) hfirst hsecond heq

end Appended

end Augment

end ClientSdk
