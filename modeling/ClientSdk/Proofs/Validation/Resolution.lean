import ClientSdk.Proofs.Schema.Sealing
import ClientSdk.Proofs.Validation.Selections

/-!
# What Validation Knows and a Schema Holds

Operations are checked against the text of a schema and resolved in the schema itself. The text
declares more names than the schema has keys: the roots, the types that describe schemas, and the
markers under other names. It also has fields that need no declaration. Everything else that is
found in the text is found in the schema.

## Main definitions

* `Schema.IsHidden`, `Schema.IsMeta`: types and fields that only the text has.
* `Schema.Operable`: operations can be checked against the text of the schema.

## Main results

* `Schema.Operable.mem_keys_or_isHidden`: each type of the text is in the schema or hidden.
* `Schema.Operable.exists_field`: each valid selection names a field of the schema or a meta field.
-/

namespace ClientSdk

open Token

namespace Schema

variable {schema : Schema}

/-- A type that schema text declares or refers to, but that is under no key: a root, a type that
describes schemas, or a marker under the name that it has in the text. -/
def IsHidden (schema : Schema) (name : String) : Prop :=
  name = schema.query.name ∨ name = schema.mutation.name ∨
    name ∈ BuiltIn.introspectionTypes.map (·.name) ∨ name ∈ mutationResults.map nameInSdl

instance (schema : Schema) (name : String) : Decidable (schema.IsHidden name) :=
  inferInstanceAs (Decidable (_ ∨ _ ∨ _ ∨ _))

/-- A field that can be selected from the type `type` although no type declares it: every object
type has `__typename`, and the root of queries also has the two that describe the schema. -/
def IsMeta (schema : Schema) (type name : String) : Prop :=
  name = "__typename" ∨ type = schema.query.name ∧ name ∈ ["__schema", "__type"]

instance (schema : Schema) (type name : String) : Decidable (schema.IsMeta type name) :=
  inferInstanceAs (Decidable (_ ∨ _ ∧ _))

/-- The names of meta fields are reserved. -/
theorem IsMeta.isReserved {type name : String} (h : schema.IsMeta type name) : IsReserved name := by
  have hmeta : ∀ name ∈ ["__typename", "__schema", "__type"], IsReserved name := by
    simp only [IsReserved]
    decide
  rcases h with rfl | ⟨-, hname⟩
  · exact hmeta _ List.mem_cons_self
  · exact hmeta _ (List.mem_cons_of_mem _ hname)

/-- Operations can be checked against the text of the schema, and the schema has the scalars and
the markers under their own names. -/
structure Operable (schema : Schema) : Prop where
  /-- Every type stands under its own name. -/
  keyed : schema.Keyed
  /-- The scalars that every schema has are there. -/
  standard : ∀ name ∈ standardScalars, name ∈ schema.types.keys
  /-- The markers are there. -/
  markers : ∀ name ∈ mutationResults, name ∈ schema.types.keys
  /-- The names can be written. -/
  writable : schema.IsWritable
  /-- The schema is valid as a document. -/
  seals : schema.Seals

/-! ### Types -/

namespace Operable

variable (h : schema.Operable)

include h

/-- **Every name that stands for a type in schema text** is a key, or it is hidden. -/
theorem mem_keys_or_isHidden {p : TypeBody → Bool} {name : String}
    (hname : schema.toDeclarations.bodySatisfies p name = true) :
    name ∈ schema.types.keys ∨ schema.IsHidden name := by
  rcases h.seals.distinct.bodySatisfies_iff.mp hname with
    ⟨type, htype, rfl, -⟩ | ⟨type, htype, rfl, -⟩
  · rcases mem_values_or_root_of_mem_declaredTypes htype with hvalue | rfl | rfl
    · rcases (h.writable.types type htype).name with htypeName | hmarker
      · rw [nameInSdl_of_isName htypeName]
        exact Or.inl (h.keyed.name_mem_keys hvalue)
      · exact Or.inr (Or.inr (Or.inr (Or.inr (List.mem_map_of_mem hmarker))))
    · rw [nameInSdl_of_isName h.writable.query]
      exact Or.inr (Or.inl rfl)
    · rw [nameInSdl_of_isName h.writable.mutation]
      exact Or.inr (Or.inr (Or.inl rfl))
  · rcases List.mem_append.mp htype with hdescribing | hscalar
    · exact Or.inr (Or.inr (Or.inr (Or.inl (List.mem_map_of_mem hdescribing))))
    · obtain ⟨name, hstandard, rfl⟩ := List.mem_map.mp hscalar
      exact Or.inl (h.standard name hstandard)

/-- The same for the names by which the fields of a schema refer to types. -/
theorem mem_keys_or_isHidden_of_nameInSdl {p : TypeBody → Bool} {name : String}
    (hwritten : IsTypeName name)
    (hname : schema.toDeclarations.bodySatisfies p (nameInSdl name) = true) :
    name ∈ schema.types.keys ∨ schema.IsHidden name := by
  rcases hwritten with hwritten | hmarker
  · rw [nameInSdl_of_isName hwritten] at hname
    exact h.mem_keys_or_isHidden hname
  · exact Or.inl (h.markers name hmarker)

/-- **A field refers to a type of the schema**, or to one that is hidden. -/
theorem leafName_mem_keys_or_isHidden {type : TypeDef} (htype : type ∈ schema.declaredTypes)
    (hscalar : type.isScalar = false) {field : FieldDef} (hfield : field ∈ type.fields) :
    field.type.leafName ∈ schema.types.keys ∨ schema.IsHidden field.type.leafName := by
  have hname := ((h.writable.types type htype).fields field hfield).type
  have hallows := h.seals.allowsType h.writable htype
  cases hkind : type.kind with
  | scalar =>
      rw [TypeDef.isScalar, hkind] at hscalar
      cases hscalar
  | object =>
      exact h.mem_keys_or_isHidden_of_nameInSdl hname (hallows.fields hkind field hfield).answers
  | input =>
      exact h.mem_keys_or_isHidden_of_nameInSdl hname (hallows.inputs hkind field hfield).takes

/-! ### Fields -/

/-- The fields that can be selected from a type, found by name: a meta field, or what a field of
the type declares. Only object types have any. -/
theorem isMeta_or_of_find?_fields {type : TypeDef} (htype : type ∈ schema.declaredTypes)
    {name : String} {declaration : FieldDecl}
    (hfind : (schema.toDeclarations.fields (nameInSdl type.name)).find? (·.name == name) =
      some declaration) :
    type.kind = .object ∧ (schema.IsMeta type.name name ∨
      ∃ field, type.field? name = some field ∧ declaration = field.toDecl) := by
  have hfound := h.seals.distinct.type?_eq htype
  rw [Declarations.fields, hfound, Option.map_some, TypeDef.toDecl, TypeDef.toBody] at hfind
  cases hkind : type.kind with
  | scalar => rw [hkind] at hfind; cases hfind
  | input => rw [hkind] at hfind; cases hfind
  | object =>
      refine ⟨rfl, ?_⟩
      rw [hkind] at hfind
      dsimp only at hfind
      rw [List.cons_append, List.find?_cons] at hfind
      split at hfind
      · rename_i htypename
        exact Or.inl (Or.inl (beq_iff_eq.mp htypename).symm)
      rw [List.find?_append, Option.or_eq_some_iff] at hfind
      rcases hfind with hmeta | ⟨-, hown⟩
      · split at hmeta
        · rename_i hroot
          have hsame : nameInSdl schema.query.name = nameInSdl type.name := by
            rw [nameInSdl_of_isName h.writable.query]
            exact Option.some.inj hroot
          have hroots : schema.query = type :=
            List.inj_on_of_nodup_map h.seals.distinct.nodup query_mem_declaredTypes htype hsame
          have hname := List.mem_map_of_mem (f := FieldDecl.name) (List.mem_of_find?_eq_some hmeta)
          have hkey : declaration.name = name := by simpa using List.find?_some hmeta
          rw [hkey] at hname
          exact Or.inl (Or.inr ⟨by rw [hroots], hname⟩)
        · cases hmeta
      · rw [List.find?_map, Option.map_eq_some_iff] at hown
        obtain ⟨field, hfield, rfl⟩ := hown
        exact Or.inr ⟨field, hfield, rfl⟩

/-- A type with fields is no leaf. -/
theorem isLeaf_eq_false {type : TypeDef} (htype : type ∈ schema.declaredTypes)
    (hscalar : type.isScalar = false) :
    schema.toDeclarations.isLeaf (nameInSdl type.name) = false := by
  rw [Declarations.isLeaf, Declarations.bodySatisfies, h.seals.distinct.type?_eq htype,
    Option.any_some, TypeDef.toDecl, TypeDef.toBody]
  cases hkind : type.kind with
  | scalar =>
      rw [TypeDef.isScalar, hkind] at hscalar
      cases hscalar
  | object => rfl
  | input => rfl

/-- **A valid selection names a field of its type**, or a meta field. What is selected below it is
valid on the type of the field, and something is selected unless that is a scalar. -/
theorem exists_field {type : TypeDef} (htype : type ∈ schema.declaredTypes)
    {selections : List Selection}
    (hselections : schema.toDeclarations.Validates (nameInSdl type.name) selections)
    {name : String} {alias? : Option String} {below : List Selection}
    (hmem : .field name alias? below ∈ selections) :
    type.field? name = none ∧ schema.IsMeta type.name name ∨
      ∃ field, type.field? name = some field ∧ ∀ child,
        schema.get? field.type.leafName = some child → child.isScalar = false →
        schema.toDeclarations.Validates (nameInSdl child.name) below ∧ below ≠ [] := by
  obtain ⟨declaration, hfind, hleaf, hbelow⟩ := hselections.field hmem
  obtain ⟨hkind, hmeta | ⟨field, hfield, rfl⟩⟩ := h.isMeta_or_of_find?_fields htype hfind
  · refine Or.inl ⟨?_, hmeta⟩
    -- The names of fields are not reserved.
    rw [← Option.not_isSome_iff_eq_none]
    intro hhas
    obtain ⟨field, hfield⟩ := Option.isSome_iff_exists.mp hhas
    obtain ⟨hdeclared, rfl⟩ := TypeDef.mem_of_field?_eq_some hfield
    exact ((h.seals.allowsType h.writable htype).fields hkind field hdeclared).free
      hmeta.isReserved
  · refine Or.inr ⟨field, hfield, fun child hget hscalar => ?_⟩
    have hname : field.toDecl.type.leafName = nameInSdl child.name := by
      rw [h.keyed.name_eq hget]
      exact Lexer.leafName_withNameInSdl _
    rw [hname] at hleaf hbelow
    exact ⟨hbelow, hleaf (h.isLeaf_eq_false (mem_declaredTypes_of_get? hget hscalar) hscalar)⟩

end Operable

end Schema

end ClientSdk
