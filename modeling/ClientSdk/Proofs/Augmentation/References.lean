import ClientSdk.Proofs.Augmentation.AnySchema
import ClientSdk.Proofs.Augmentation.Content

/-!
# References after Augmentation

Augmentation checks the references of the object types that the user has declared, before it adds
anything. Everything that it adds refers to types that are there once it has succeeded. The
references of the other declarations, the input types and the two roots among them, are not
checked, so the augmented schema has dangling references exactly where these have.

## Main definitions

* `TypeDef.RefersWithin`: the types that a type refers to have a property.
* `Schema.RefersToTypes`: every reference of a schema is to one of its types.
* `Augment.Provides`: the names of the types that there are after augmentation.
* `Augment.Unchecked`: the declarations whose references are not checked.
* `Augment.RestRefersToTypes`: their references are to types that there are after augmentation.

## Main results

* `Augment.Passed.mem_keys_iff`, `Augment.Passed.mem_values_iff`: the types after augmentation.
* `augment_references`: dangling references of object types are reported, and the others are not.
-/

namespace ClientSdk

/-! ### References -/

/-- The types of a field and of its arguments have the property. -/
def FieldDef.RefersWithin (P : String → Prop) (field : FieldDef) : Prop :=
  P field.type.leafName ∧ ∀ arg ∈ field.arguments, P arg.type.leafName

instance (P : String → Prop) [DecidablePred P] (field : FieldDef) :
    Decidable (field.RefersWithin P) :=
  inferInstanceAs (Decidable (_ ∧ ∀ arg ∈ _, _))

/-- The types of all fields and of their arguments have the property. -/
def TypeDef.RefersWithin (P : String → Prop) (type : TypeDef) : Prop :=
  ∀ field ∈ type.fields, field.RefersWithin P

instance (P : String → Prop) [DecidablePred P] (type : TypeDef) :
    Decidable (type.RefersWithin P) :=
  inferInstanceAs (Decidable (∀ field ∈ _, _))

section

variable {P Q : String → Prop}

/-- References within a property are within every weaker one. -/
theorem FieldDef.RefersWithin.mono {field : FieldDef} (h : field.RefersWithin P)
    (hweaker : ∀ name, P name → Q name) : field.RefersWithin Q :=
  ⟨hweaker _ h.1, fun arg harg => hweaker _ (h.2 arg harg)⟩

theorem TypeDef.RefersWithin.mono {type : TypeDef} (h : type.RefersWithin P)
    (hweaker : ∀ name, P name → Q name) : type.RefersWithin Q :=
  fun field hfield => (h field hfield).mono hweaker

/-- A type with more fields has its own references and theirs. -/
theorem TypeDef.refersWithin_pushFields_iff {type : TypeDef} {fields : List FieldDef} :
    (type.pushFields fields).RefersWithin P ↔
      type.RefersWithin P ∧ ∀ field ∈ fields, field.RefersWithin P :=
  List.forall_mem_append

end

/-- Every type that a field of a root or a type, or an argument of such a field, refers to is a
type of the schema. -/
def Schema.RefersToTypes (schema : Schema) : Prop :=
  ∀ type ∈ schema.declarations, type.RefersWithin (· ∈ schema.types.keys)

instance (schema : Schema) : Decidable schema.RefersToTypes :=
  inferInstanceAs (Decidable (∀ type ∈ _, _))

namespace Augment

variable {schema : Schema}

/-! ### Before augmentation -/

/-- There is a type of this name after augmentation: it has been there, or it is a marker or the
input type of a user-declared object type. -/
def Provides (schema : Schema) (name : String) : Prop :=
  name ∈ schema.types.keys ∨ name ∈ mutationResults ∨
    ∃ type ∈ schema.userObjects, name = inputTypeName (sourceName schema type)

instance (schema : Schema) : DecidablePred (Provides schema) :=
  fun _ => inferInstanceAs (Decidable (_ ∨ _ ∨ ∃ type ∈ _, _))

/-- The references of the declaration are not checked: it is a root, or a type that the user has
not declared as an object type. A type under the name of a marker is left out, since the marker
takes its place. -/
def Unchecked (schema : Schema) (type : TypeDef) : Prop :=
  type = schema.query ∨ type = schema.mutation ∨
    ∃ name ∉ mutationResults, schema.get? name = some type ∧ type.isUserObject = false

/-- What the unchecked declarations refer to is there after augmentation, and so is the type of
the identifiers that mutations of object types take. -/
structure RestRefersToTypes (schema : Schema) : Prop where
  /-- The unchecked declarations refer to types. -/
  unchecked : ∀ type, Unchecked schema type → type.RefersWithin (Provides schema)
  /-- Identifiers have a type. -/
  string : schema.userObjects ≠ [] → "String" ∈ schema.types.keys

/-- The references of object types that are resolved are to types. -/
theorem Resolved.refersWithin (h : Resolved schema) {type : TypeDef}
    (htype : type ∈ schema.userObjects) : type.RefersWithin (Provides schema) :=
  fun field hfield => ⟨.inl (h type htype field hfield).1,
    fun arg harg => .inl ((h type htype field hfield).2 arg harg)⟩

/-! ### After augmentation -/

namespace Passed

variable {added : List (String × FieldDef)} {extended : Schema} {types : List TypeDef}

/-- The names of the types after augmentation. -/
theorem mem_keys_iff (h : Passed schema added extended types) {name : String} :
    name ∈ extended.types.keys ↔ Provides schema name := by
  rw [h.inputs.keys_eq, List.mem_append, keys_related, mem_keys_addResultScalars_iff, or_assoc,
    Provides, List.map_map, List.mem_map]
  refine or_congr_right (or_congr_right (exists_congr fun type => and_congr_right fun _ => ?_))
  rw [Function.comp_apply, nameUnder_related, ← sourceName, eq_comm]

/-- The types after augmentation: those before with their relation fields, and the input types. -/
theorem mem_values_iff (h : Passed schema added extended types) {type : TypeDef} :
    type ∈ extended.types.values ↔
      (∃ key old, (addResultScalars schema).get? key = some old ∧
        type = old.pushFields (TypeMap.addedTo added key)) ∨
      ∃ source ∈ types, type = inputType (schema.userObjects.map (·.name)) source := by
  rw [TypeMap.values, h.inputs.entries_eq, List.map_append, List.mem_append]
  refine or_congr ?_ ?_
  · simp only [related, TypeMap.withFields, List.mem_map, Schema.get?, TypeMap.get?_eq_some_iff]
    constructor
    · rintro ⟨_, ⟨⟨key, old⟩, hold, rfl⟩, rfl⟩
      exact ⟨key, old, hold, rfl⟩
    · rintro ⟨key, old, hold, rfl⟩
      exact ⟨_, ⟨(key, old), hold, rfl⟩, rfl⟩
  · simp only [inputEntries, List.map_map, List.mem_map, Function.comp_apply, eq_comm]

/-- A relation field refers to the object type that it leads back to. -/
theorem exists_of_mem_addedTo (h : Passed schema added extended types) {key : String}
    {field : FieldDef} (hfield : field ∈ TypeMap.addedTo added key) :
    ∃ owner ∈ schema.userObjects, field.type.leafName = owner.name ∧ field.arguments = [] := by
  obtain ⟨owner, howner, referenced, -, heq⟩ := exists_of_mem_relations
    (h.relations.sublist.subset (TypeMap.mem_addedTo_iff.mp hfield))
  obtain ⟨-, rfl⟩ := Prod.mk.inj heq
  exact ⟨owner, howner, rfl, rfl⟩

end Passed

/-- Where the augmented schema refers to types only, so does everything that is not checked. -/
theorem restRefersToTypes_of_refersToTypes {result : Augmentation}
    (haugment : augment schema = .ok result) (h : result.schema.RefersToTypes) :
    RestRefersToTypes schema := by
  obtain ⟨added, extended, types, hpassed, -, -, hresult⟩ := exists_passed haugment
  rw [hresult] at h
  have hkeys : ∀ name, name ∈ extended.types.keys → Provides schema name :=
    fun name => hpassed.mem_keys_iff.mp
  have hquery := TypeDef.refersWithin_pushFields_iff.mp (h _ List.mem_cons_self)
  have hmutation := TypeDef.refersWithin_pushFields_iff.mp
    (h _ (List.mem_cons_of_mem _ List.mem_cons_self))
  refine ⟨?_, fun hne => ?_⟩
  · rintro type (rfl | rfl | ⟨name, hname, hget, -⟩)
    · exact hquery.1.mono hkeys
    · exact hmutation.1.mono hkeys
    · have hvalue := hpassed.mem_values_iff.mpr
        (.inl ⟨name, type, (get?_addResultScalars_of_notMem hname).trans hget, rfl⟩)
      have htype := h _ (List.mem_cons_of_mem _ (List.mem_cons_of_mem _ hvalue))
      exact (TypeDef.refersWithin_pushFields_iff.mp htype).1.mono hkeys
  · -- The deletion of any object type takes an identifier.
    obtain ⟨object, rest, hobjects⟩ := List.exists_cons_of_ne_nil hne
    have hnames := hpassed.map_name_types
    rw [hobjects, List.map_cons] at hnames
    obtain ⟨source, others, rfl, -, -⟩ := List.map_eq_cons_iff.mp hnames
    have hdeletion := hmutation.2 _ (List.mem_flatMap.mpr
      ⟨source, List.mem_cons_self, List.mem_cons_of_mem _ List.mem_cons_self⟩)
    rcases hkeys _ (hdeletion.2 _ List.mem_cons_self) with hstring | hmarker | ⟨type, -, hinput⟩
    · exact hstring
    · exact absurd hmarker (by decide)
    · exact absurd (List.mem_singleton.mpr hinput.symm) (inputTypeName_notMem (by decide) _)

section Sufficient

variable {added : List (String × FieldDef)} {extended : Schema} {types : List TypeDef}
  (hpassed : Passed schema added extended types)
  (hnamed : ∀ type ∈ schema.userObjects, schema.get? type.name = some type)

include hnamed

/-- An object type that stands under its name is there after augmentation. -/
theorem provides_name {type : TypeDef} (htype : type ∈ schema.userObjects) :
    Provides schema type.name :=
  .inl (TypeMap.contains_iff.mp (Option.isSome_iff_exists.mpr ⟨type, hnamed type htype⟩))

/-- And so is its input type. -/
theorem provides_inputTypeName {type : TypeDef} (htype : type ∈ schema.userObjects) :
    Provides schema (inputTypeName type.name) :=
  .inr (.inr ⟨type, htype, by rw [sourceName_of_get? (hnamed type htype) rfl]⟩)

include hpassed

/-- Declarations are made of types that have the names of object types. -/
theorem exists_userObject_of_mem_types {source : TypeDef} (hsource : source ∈ types) :
    ∃ type ∈ schema.userObjects, source.name = type.name := by
  have hmem : source.name ∈ schema.userObjects.map (sourceName schema) :=
    hpassed.map_name_types ▸ List.mem_map_of_mem hsource
  obtain ⟨type, htype, hname⟩ := List.mem_map.mp hmem
  exact ⟨type, htype, hname.symm.trans (sourceName_of_get? (hnamed type htype) rfl)⟩

variable (hrest : RestRefersToTypes schema)

include hrest

/-- The types that were there before refer to types, with their relation fields. -/
theorem refersWithin_pushFields {key : String} {old : TypeDef}
    (hold : (addResultScalars schema).get? key = some old) :
    (old.pushFields (TypeMap.addedTo added key)).RefersWithin (Provides schema) := by
  refine TypeDef.refersWithin_pushFields_iff.mpr ⟨?_, fun field hfield => ?_⟩
  · rw [get?_addResultScalars_eq] at hold
    split at hold
    · -- A marker has no fields.
      obtain rfl := Option.some.inj hold
      exact fun field hfield => absurd hfield List.not_mem_nil
    · rename_i hmarker
      cases huser : old.isUserObject with
      | true =>
          exact hpassed.resolved.refersWithin
            (mem_userObjects_iff.mpr ⟨Schema.mem_values_of_get? hold, huser⟩)
      | false => exact hrest.unchecked old (.inr (.inr ⟨key, hmarker, hold, huser⟩))
  · obtain ⟨owner, howner, hleaf, harguments⟩ := hpassed.exists_of_mem_addedTo hfield
    refine ⟨hleaf ▸ provides_name hnamed howner, fun arg harg => ?_⟩
    rw [harguments] at harg
    exact absurd harg List.not_mem_nil

/-- The types that declarations are made of refer to types. -/
theorem refersWithin_of_mem_types {source : TypeDef} (hsource : source ∈ types) :
    source.RefersWithin (Provides schema) := by
  obtain ⟨name, hname, hget⟩ := hpassed.inputs.exists_get? source hsource
  obtain ⟨type, htype, rfl⟩ := List.mem_map.mp hname
  -- The object type itself is found, or the marker that has taken its place.
  obtain ⟨old, hold⟩ : ∃ old, (addResultScalars schema).get? type.name = some old := by
    rw [get?_addResultScalars_eq, hnamed type htype]
    split
    · exact ⟨_, rfl⟩
    · exact ⟨type, rfl⟩
  have hrelated : (related schema added).get? type.name =
      some (old.pushFields (TypeMap.addedTo added type.name)) := by
    rw [related, Schema.get?, TypeMap.get?_withFields, ← Schema.get?, hold]
    rfl
  obtain rfl := Option.some.inj (hget.symm.trans (hpassed.inputs.get?_eq hrelated))
  exact refersWithin_pushFields hpassed hnamed hrest hold

/-- Input types refer to types. -/
theorem refersWithin_inputType {source : TypeDef} (hsource : source ∈ types) :
    (inputType (schema.userObjects.map (·.name)) source).RefersWithin (Provides schema) := by
  intro copy hcopy
  obtain ⟨field, hfield, rfl⟩ := List.mem_map.mp hcopy
  have hrefers := refersWithin_of_mem_types hpassed hnamed hrest hsource field hfield
  rw [inputField]
  split
  · rename_i hobject
    obtain ⟨type, htype, hname⟩ := List.mem_map.mp hobject
    refine ⟨?_, hrefers.2⟩
    rw [TypeRef.leafName_withLeafName, ← hname]
    exact provides_inputTypeName hnamed htype
  · exact hrefers

/-- Mutations refer to types. -/
theorem refersWithin_of_mem_mutationFields {source : TypeDef} (hsource : source ∈ types)
    {field : FieldDef} (hfield : field ∈ mutationFields source) :
    field.RefersWithin (Provides schema) := by
  obtain ⟨type, htype, hname⟩ := exists_userObject_of_mem_types hpassed hnamed hsource
  have hdata : Provides schema (inputTypeName source.name) :=
    hname ▸ provides_inputTypeName hnamed htype
  have hid : Provides schema "String" := .inl (hrest.string (List.ne_nil_of_mem htype))
  have hinsert : Provides schema insertResult := .inr (.inl (by decide))
  have hdelete : Provides schema deleteResult := .inr (.inl (by decide))
  have hupdate : Provides schema updateResult := .inr (.inl (by decide))
  simp only [mutationFields, List.mem_cons, List.not_mem_nil, or_false] at hfield
  rcases hfield with rfl | rfl | rfl
  · exact ⟨hinsert, List.forall_mem_singleton.mpr hdata⟩
  · exact ⟨hdelete, List.forall_mem_singleton.mpr hid⟩
  · exact ⟨hupdate, List.forall_mem_cons.mpr ⟨hid, List.forall_mem_singleton.mpr hdata⟩⟩

/-- Queries refer to types. -/
theorem refersWithin_of_mem_queryFields {source : TypeDef} (hsource : source ∈ types)
    {field : FieldDef} (hfield : field ∈ queryFields extended source) :
    field.RefersWithin (Provides schema) := by
  obtain ⟨type, htype, hname⟩ := exists_userObject_of_mem_types hpassed hnamed hsource
  have hsourceName : Provides schema source.name := hname ▸ provides_name hnamed htype
  have hfilters : ∀ arg ∈ source.fields.map (filterArgument extended),
      Provides schema arg.type.leafName := by
    intro arg harg
    obtain ⟨declared, hdeclared, rfl⟩ := List.mem_map.mp harg
    rw [filterArgument, TypeRef.leafName_withNullable]
    split
    · exact (refersWithin_of_mem_types hpassed hnamed hrest hsource declared hdeclared).1
    · rw [TypeRef.leafName_withLeafName]
      exact .inl (hrest.string (List.ne_nil_of_mem htype))
  simp only [queryFields, List.mem_cons, List.not_mem_nil, or_false] at hfield
  rcases hfield with rfl | rfl
  · exact ⟨hsourceName, hfilters⟩
  · exact ⟨hsourceName, hfilters⟩

end Sufficient

/-- Where object types stand under their names and everything that is not checked refers to types,
so does the augmented schema. -/
theorem refersToTypes_of_restRefersToTypes {result : Augmentation}
    (haugment : augment schema = .ok result)
    (hnamed : ∀ type ∈ schema.userObjects, schema.get? type.name = some type)
    (hrest : RestRefersToTypes schema) : result.schema.RefersToTypes := by
  obtain ⟨added, extended, types, hpassed, -, -, hresult⟩ := exists_passed haugment
  have hkeys : ∀ name, Provides schema name → name ∈ result.schema.types.keys := by
    rw [hresult]
    exact fun name => hpassed.mem_keys_iff.mpr
  intro type htype
  refine TypeDef.RefersWithin.mono ?_ hkeys
  rw [hresult, Schema.declarations, List.mem_cons, List.mem_cons] at htype
  rcases htype with rfl | rfl | hvalue
  · refine TypeDef.refersWithin_pushFields_iff.mpr ⟨hrest.unchecked _ (.inl rfl), ?_⟩
    intro field hfield
    obtain ⟨source, hsource, hquery⟩ := List.mem_flatMap.mp hfield
    exact refersWithin_of_mem_queryFields hpassed hnamed hrest hsource hquery
  · refine TypeDef.refersWithin_pushFields_iff.mpr ⟨hrest.unchecked _ (.inr (.inl rfl)), ?_⟩
    intro field hfield
    obtain ⟨source, hsource, hmutation⟩ := List.mem_flatMap.mp hfield
    exact refersWithin_of_mem_mutationFields hpassed hnamed hrest hsource hmutation
  · rcases hpassed.mem_values_iff.mp hvalue with ⟨key, old, hold, rfl⟩ | ⟨source, hsource, rfl⟩
    · exact refersWithin_pushFields hpassed hnamed hrest hold
    · exact refersWithin_inputType hpassed hnamed hrest hsource

/-- A dangling reference of an object type is reported, whatever else there is to report. -/
theorem exists_missingType_of_not_resolved (h : ¬Resolved schema) :
    ∃ name reference, (name, reference) ∈ schema.userObjects.flatMap typeReferences ∧
      name ∉ schema.types.keys ∧ augment schema = .error (.missingType name reference) := by
  cases hrefs : requireReferences schema schema.userObjects with
  | ok done => exact absurd (requireReferences_eq_ok_iff.mp hrefs) h
  | error error =>
      obtain ⟨⟨name, reference⟩, hentry, hmissing, rfl⟩ :=
        exists_of_requireReferences_eq_error hrefs
      exact ⟨name, reference, hentry, hmissing, bind_eq_error_iff.mpr (.inl hrefs)⟩

end Augment

open Augment in
/-- **References after augmentation.** A dangling reference of a user-declared object type makes
augmentation fail with a missing type. Those of input types, of roots and of the types that the
user has not declared do not: where object types stand under their names, an augmented schema
refers to its types only exactly when these declarations do. -/
theorem augment_references (schema : Schema) :
    (¬Resolved schema →
      ∃ name reference, (name, reference) ∈ schema.userObjects.flatMap typeReferences ∧
        name ∉ schema.types.keys ∧ augment schema = .error (.missingType name reference)) ∧
    ∀ result, augment schema = .ok result →
      (result.schema.RefersToTypes → RestRefersToTypes schema) ∧
      ((∀ type ∈ schema.userObjects, schema.get? type.name = some type) →
        RestRefersToTypes schema → result.schema.RefersToTypes) :=
  ⟨exists_missingType_of_not_resolved, fun _ haugment =>
    ⟨restRefersToTypes_of_refersToTypes haugment,
      refersToTypes_of_restRefersToTypes haugment⟩⟩

/-- A schema of films, with fields of the given types in the object type and in an input type. -/
def filteredSchema (leaf filter : String) : Schema where
  types := .ofList (standardScalars.map .givenScalar ++
    [{ name := "Film", fields := [{ name := "key", type := .named leaf true }] },
     { name := "Filter", kind := .input, fields := [{ name := "x", type := .named filter true }] }])
  query := { name := "Query", fields := [{ name := "version", type := .named "Int" true }] }
  mutation := { name := "Mutation" }

open Augment in
/-- A missing type of a field of the object type is reported. A filter of films refers to the input
type that augmentation adds, so that the augmented schema refers to its types only. -/
theorem augment_references_film :
    (∃ name reference, augment (filteredSchema "Missing" "Int") =
      .error (.missingType name reference)) ∧
    ∃ result, augment (filteredSchema "ID" "Film_Data") = .ok result ∧
      result.schema.RefersToTypes := by
  constructor
  · obtain ⟨hdangling, -⟩ := augment_references (filteredSchema "Missing" "Int")
    obtain ⟨name, reference, -, -, hfails⟩ := hdangling (by decide)
    exact ⟨name, reference, hfails⟩
  · have hok : (augment (filteredSchema "ID" "Film_Data")).isOk = true := by rfl
    obtain ⟨result, haugment⟩ := exists_eq_ok_of_isOk hok
    have hvalues : ∀ type ∈ (filteredSchema "ID" "Film_Data").types.values,
        type.isUserObject = false →
          type.RefersWithin (Provides (filteredSchema "ID" "Film_Data")) := by decide
    refine ⟨result, haugment, ((augment_references _).2 result haugment).2 (by decide)
      ⟨?_, fun _ => by decide⟩⟩
    rintro type (rfl | rfl | ⟨name, -, hget, huser⟩)
    · decide
    · decide
    · exact hvalues type (Schema.mem_values_of_get? hget) huser

open Augment in
/-- **A dangling reference is accepted**: the input type refers to a type that does not exist, and
so it does in the augmented schema. -/
theorem augment_accepts_dangling_filter :
    (∃ type ∈ (filteredSchema "ID" "Missing").types.values, type.kind = .input ∧
      type.builtin = false ∧ ∃ field ∈ type.fields,
        field.type.leafName ∉ (filteredSchema "ID" "Missing").types.keys ∧
        field.type.leafName ∉ mutationResults) ∧
    ∃ result, augment (filteredSchema "ID" "Missing") = .ok result ∧
      ¬result.schema.RefersToTypes := by
  have hok : (augment (filteredSchema "ID" "Missing")).isOk = true := by rfl
  obtain ⟨result, haugment⟩ := exists_eq_ok_of_isOk hok
  refine ⟨by decide, result, haugment, fun hrefers => ?_⟩
  have hrest := restRefersToTypes_of_refersToTypes haugment hrefers
  have hfilter := hrest.unchecked
    { name := "Filter", kind := .input, fields := [{ name := "x", type := .named "Missing" true }] }
    (.inr (.inr ⟨"Filter", by decide, by rfl, by rfl⟩))
  exact absurd hfilter (by decide)

end ClientSdk
