import ClientSdk.Proofs.Lookup

/-!
# Well-Formed Schemas

What the results about augmentation and class models ask of a schema: each type stands under
its own name, no type declares a field twice, and the types that fields refer to exist.

## Main definitions

* `Schema.declarations`: the roots and the types of a schema.
* `Schema.Keyed`, `Schema.DistinctFields`, `Schema.ReferenceClosed`, `Schema.Closed`.
-/

namespace ClientSdk

/-- No field name is declared twice. -/
def TypeDef.DistinctFields (type : TypeDef) : Prop := (type.fields.map (·.name)).Nodup

instance (type : TypeDef) : Decidable type.DistinctFields :=
  inferInstanceAs (Decidable (List.Nodup _))

/-- With distinct fields, look-up by name finds each of them. -/
theorem TypeDef.DistinctFields.field?_eq_some {type : TypeDef} (h : type.DistinctFields)
    {field : FieldDef} (hfield : field ∈ type.fields) : type.field? field.name = some field :=
  find?_eq_some_of_nodup h hfield

/-- A field that look-up finds is declared and has the name that was looked up. -/
theorem TypeDef.mem_of_field?_eq_some {type : TypeDef} {name : String} {field : FieldDef}
    (h : type.field? name = some field) : field ∈ type.fields ∧ field.name = name := by
  rw [field?] at h
  have hname := List.find?_some h
  exact ⟨List.mem_of_find?_eq_some h, by simpa using hname⟩

/-- A type has the fields that it declares. -/
theorem TypeDef.hasField_iff {type : TypeDef} {name : String} :
    type.hasField name = true ↔ name ∈ type.fields.map (·.name) := by
  rw [hasField, field?, List.find?_isSome, List.mem_map]
  simp

theorem TypeDef.hasField_of_mem {type : TypeDef} {field : FieldDef} (h : field ∈ type.fields) :
    type.hasField field.name = true :=
  hasField_iff.mpr (List.mem_map_of_mem h)

namespace Schema

variable {schema : Schema}

/-- The roots and the types of a schema. -/
def declarations (schema : Schema) : List TypeDef :=
  schema.query :: schema.mutation :: schema.types.values

/-- Every type stands under its own name. -/
def Keyed (schema : Schema) : Prop :=
  ∀ entry ∈ schema.types.entries, entry.1 = entry.2.name

instance (schema : Schema) : Decidable schema.Keyed :=
  inferInstanceAs (Decidable (∀ entry ∈ _, _))

/-- Neither a type nor a root declares a field twice. -/
def DistinctFields (schema : Schema) : Prop :=
  ∀ type ∈ schema.query :: schema.mutation :: schema.types.values, type.DistinctFields

instance (schema : Schema) : Decidable schema.DistinctFields :=
  inferInstanceAs (Decidable (∀ type ∈ _, _))

/-- Every field of a type or a root refers to a type of the schema. -/
def ReferenceClosed (schema : Schema) : Prop :=
  ∀ type ∈ schema.query :: schema.mutation :: schema.types.values,
    ∀ field ∈ type.fields, schema.types.contains field.type.leafName = true

instance (schema : Schema) : Decidable schema.ReferenceClosed :=
  inferInstanceAs (Decidable (∀ type ∈ _, ∀ field ∈ _, _))

/-- Every field of a type or a root refers to a type of the schema, and every type stands under
its own name. -/
def Closed (schema : Schema) : Prop := schema.Keyed ∧ schema.ReferenceClosed

instance (schema : Schema) : Decidable schema.Closed :=
  inferInstanceAs (Decidable (_ ∧ _))

/-- A type found in a schema is one of its values. -/
theorem mem_values_of_get? {name : String} {type : TypeDef} (h : schema.get? name = some type) :
    type ∈ schema.types.values :=
  List.mem_map.mpr ⟨(name, type), TypeMap.get?_eq_some_iff.mp h, rfl⟩

theorem mem_declarations_of_get? {name : String} {type : TypeDef}
    (h : schema.get? name = some type) : type ∈ schema.declarations :=
  List.mem_append_right [schema.query, schema.mutation] (mem_values_of_get? h)

/-- A type is found under its own name. -/
theorem Keyed.name_eq (h : schema.Keyed) {name : String} {type : TypeDef}
    (hget : schema.get? name = some type) : type.name = name :=
  (h _ (TypeMap.get?_eq_some_iff.mp hget)).symm

/-- A type of a schema is found under its own name. -/
theorem Keyed.get?_of_mem_values (h : schema.Keyed) {type : TypeDef}
    (hmem : type ∈ schema.types.values) : schema.get? type.name = some type := by
  obtain ⟨entry, hentry, rfl⟩ := List.mem_map.mp hmem
  rw [get?, TypeMap.get?_eq_some_iff, ← h entry hentry]
  exact hentry

/-- The types of a schema have the keys as their names. -/
theorem Keyed.map_name_values (h : schema.Keyed) :
    schema.types.values.map (·.name) = schema.types.keys := by
  rw [TypeMap.values, TypeMap.keys, List.map_map]
  exact List.map_congr_left fun entry hentry => (h entry hentry).symm

/-- The name of a type of a schema is a key. -/
theorem Keyed.name_mem_keys (h : schema.Keyed) {type : TypeDef}
    (htype : type ∈ schema.types.values) : type.name ∈ schema.types.keys :=
  h.map_name_values ▸ List.mem_map_of_mem htype

/-- No two types of a schema have one name. -/
theorem Keyed.nodup_name (h : schema.Keyed) : (schema.types.values.map (·.name)).Nodup :=
  h.map_name_values ▸ schema.types.nodup_keys

/-- Types found in a schema with one name are one type. -/
theorem Keyed.eq_of_name_eq (h : schema.Keyed) {name name' : String} {type type' : TypeDef}
    (hget : schema.get? name = some type) (hget' : schema.get? name' = some type')
    (hname : type.name = type'.name) : type = type' := by
  rw [h.name_eq hget, h.name_eq hget'] at hname
  rw [hname, hget'] at hget
  exact (Option.some.inj hget).symm

/-- The fields of a type of a schema have distinct names. -/
theorem DistinctFields.of_get? (h : schema.DistinctFields) {name : String} {type : TypeDef}
    (hget : schema.get? name = some type) : type.DistinctFields :=
  h type (mem_declarations_of_get? hget)

/-- The fields of a root have distinct names. -/
theorem DistinctFields.root (h : schema.DistinctFields) (kind : OperationKind) :
    (schema.root kind).DistinctFields := by
  cases kind with
  | query => exact h _ List.mem_cons_self
  | mutation => exact h _ (List.mem_cons_of_mem _ List.mem_cons_self)

/-- Where references are closed, the field of a type refers to a type. -/
theorem ReferenceClosed.exists_get? (h : schema.ReferenceClosed) {type : TypeDef}
    (htype : type ∈ schema.declarations) {field : FieldDef} (hfield : field ∈ type.fields) :
    ∃ child, schema.get? field.type.leafName = some child :=
  Option.isSome_iff_exists.mp (h type htype field hfield)

end Schema

end ClientSdk
