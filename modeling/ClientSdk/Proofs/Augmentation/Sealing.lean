import ClientSdk.Proofs.Augmentation.Allowed
import Mathlib

/-!
# Augmented Schemas Are Valid

A valid schema that can be augmented is valid afterwards exactly when what is added has a place in
a document. For that the fields of its object types must take no arguments, since they become
fields of input types. An input type requires another one only where their object types do, so none
requires itself where no object type does.

## Main definitions

* `Schema.Requires`: an object type has a single field of another one that excludes null.

## Main results

* `Augment.Appended.isReadable`: the text of an augmented schema can be read back.
* `Augment.Appended.transGen_leads`: which types require each other after augmentation.
* `augment_seals_iff`: when a valid schema is valid after augmentation.
-/

namespace ClientSdk

open Token Relation

namespace Schema

variable {schema : Schema}

/-- The object type `first` requires the type `second`: it has a single field of this type that
excludes null. -/
def Requires (schema : Schema) (first second : String) : Prop :=
  ∃ type ∈ schema.types.values, type.kind = .object ∧ type.name = first ∧
    ∃ field ∈ type.fields, field.type = .named second false

/-- The object types, each with the types that it requires. -/
def objectRequirements (schema : Schema) : References :=
  (schema.types.values.filter (·.kind == .object)).map fun type =>
    (type.name, type.fields.filterMap fun field =>
      match field.type with
      | .named leaf false => some leaf
      | _ => none)

theorem leads_objectRequirements_iff {first second : String} :
    References.Leads schema.objectRequirements first second ↔ schema.Requires first second := by
  have hsingle : ∀ type : TypeRef, (match type with
      | .named leaf false => some leaf
      | _ => none) = some second ↔ type = .named second false := by
    intro type
    cases type with
    | named leaf nullable =>
        cases nullable with
        | false => simp
        | true => simp
    | list element nullable => simp
  constructor
  · rintro ⟨entry, hentry, hfirst, hsecond⟩
    obtain ⟨type, htype, rfl⟩ := List.mem_map.mp hentry
    obtain ⟨hvalue, hkind⟩ := List.mem_filter.mp htype
    obtain ⟨field, hfield, hsome⟩ := List.mem_filterMap.mp hsecond
    exact ⟨type, hvalue, beq_iff_eq.mp hkind, hfirst, field, hfield, (hsingle _).mp hsome⟩
  · rintro ⟨type, hvalue, hkind, hfirst, field, hfield, hrequired⟩
    exact ⟨_, List.mem_map_of_mem (List.mem_filter.mpr ⟨hvalue, beq_iff_eq.mpr hkind⟩), hfirst,
      List.mem_filterMap.mpr ⟨field, hfield, (hsingle _).mpr hrequired⟩⟩

/-- Whether an object type requires itself can be computed. -/
theorem isGrounded_objectRequirements_iff :
    schema.objectRequirements.isGrounded = true ↔
      ∀ name, ¬TransGen schema.Requires name name := by
  have hsame : References.Leads schema.objectRequirements = schema.Requires := by
    funext first second
    exact propext leads_objectRequirements_iff
  rw [References.isGrounded_iff, hsame]

end Schema

namespace Augment

variable {schema : Schema}

/-- A type can be read back with further fields that have no documentation and, for an input type,
take no arguments. -/
theorem isReadable_pushFields {type : TypeDef} (htype : type.isReadable = true)
    {fields : List FieldDef} (hdescriptions : ∀ field ∈ fields, field.description = none)
    (harguments : type.kind = .input → ∀ field ∈ fields, field.arguments = []) :
    (type.pushFields fields).isReadable = true := by
  obtain ⟨hplain, hfields, hinput⟩ := TypeDef.isReadable_iff.mp htype
  refine TypeDef.isReadable_iff.mpr ⟨hplain, fun hkind => ?_, fun hkind => ?_⟩
  · obtain ⟨hnonempty, hown⟩ := hfields hkind
    refine ⟨List.append_ne_nil_of_left_ne_nil hnonempty _, List.forall_mem_append.mpr ⟨hown, ?_⟩⟩
    intro field hfield
    rw [hdescriptions field hfield]
    rfl
  · exact List.forall_mem_append.mpr ⟨hinput hkind, harguments hkind⟩

/-- The mutations of an object type have no documentation. -/
theorem description_of_mem_mutationFields {type : TypeDef} {field : FieldDef}
    (h : field ∈ mutationFields type) : field.description = none := by
  simp only [mutationFields, List.mem_cons, List.not_mem_nil, or_false] at h
  rcases h with rfl | rfl | rfl
  · rfl
  · rfl
  · rfl

/-- The queries of an object type have no documentation. -/
theorem description_of_mem_queryFields {type : TypeDef} {field : FieldDef}
    (h : field ∈ queryFields schema type) : field.description = none := by
  simp only [queryFields, List.mem_cons, List.not_mem_nil, or_false] at h
  rcases h with rfl | rfl
  · rfl
  · rfl

/-- A single field of an input type that excludes null refers to the same type as the field that it
is made from, or to its input type. -/
theorem type_eq_of_inputField {objects : List String} {field : FieldDef} {leaf : String}
    (h : (inputField objects field).type = .named leaf false) :
    ∃ original, field.type = .named original false ∧
      leaf = if original ∈ objects then inputTypeName original else original := by
  rw [inputField] at h
  cases htype : field.type with
  | named original nullable =>
      rw [htype, TypeRef.leafName] at h
      split at h
      · rename_i hobject
        obtain ⟨rfl, rfl⟩ := TypeRef.named.inj h
        exact ⟨original, rfl, (if_pos hobject).symm⟩
      · rename_i hother
        obtain ⟨rfl, rfl⟩ := TypeRef.named.inj (htype.symm.trans h)
        exact ⟨original, rfl, (if_neg hother).symm⟩
  | list element nullable =>
      split at h
      · rw [htype] at h
        cases h
      · cases htype.symm.trans h

namespace Ready

variable (h : Ready schema)

include h

/-- A type that is required by another one, or requires one, is no input type that is added, and if
it requires one, it is no scalar of every schema. -/
theorem ne_inputTypeName_of_leads {first second : String}
    (hleads : References.Leads schema.requirements first second) :
    first ∉ standardScalars ∧ ∀ object ∈ schema.userObjects,
      first ≠ inputTypeName object.name ∧ second ≠ inputTypeName object.name := by
  obtain ⟨type, htype, hkind, rfl, field, hfield, leaf, hleaf, rfl⟩ :=
    Schema.leads_requirements_iff.mp hleads
  have hnamed := h.loaded.goesBy (Schema.mem_declarations_of_mem_declaredTypes htype)
  have hleafName : isName leaf = true := by
    have hname := (hnamed.fields field hfield).type
    rwa [hleaf] at hname
  have hbuiltin := h.seals.distinct.builtin type htype
  have hpassed := (h.seals.distinct.takes_name_iff htype).mpr (by rw [hkind]; simp)
  have htakes := ((h.allowsType htype).inputs hkind field hfield).takes
  rw [hleaf] at htakes
  rw [nameInSdl_of_isName hnamed.name] at hbuiltin ⊢
  rw [nameInSdl_of_isName hleafName]
  exact ⟨Schema.notMem_standardScalars hbuiltin, fun object hobject =>
    ⟨h.ne_inputTypeName_of_takes hnamed.name hpassed hobject,
      h.ne_inputTypeName_of_takes hleafName htakes hobject⟩⟩

end Ready

namespace Appended

variable {result : Augmentation} {added : List (String × FieldDef)} {types : List TypeDef}
  (h : Appended schema result added types) (hready : Ready schema)

include h hready

/-! ### Reading back -/

omit hready in
/-- A relation field is a list without documentation and arguments. -/
theorem relationField_of_mem_addedTo (hloaded : schema.Loaded) {key : String} {field : FieldDef}
    (hfield : field ∈ TypeMap.addedTo added key) : field.description = none ∧
      field.arguments = [] ∧ ∀ leaf nullable, field.type ≠ .named leaf nullable := by
  obtain ⟨-, owner, -, rfl⟩ :=
    h.exists_owner_of_mem_addedTo hloaded.keyed hloaded.notMem_keys hfield
  exact ⟨rfl, rfl, fun _ _ hsame => nomatch hsame⟩

/-- With its relation fields, a type can be read back. -/
theorem isReadable_withRelations {old : TypeDef} (hold : old ∈ schema.declaredTypes) :
    (old.pushFields (TypeMap.addedTo added old.name)).isReadable = true :=
  isReadable_pushFields (hready.seals.readable old hold)
    (fun _ hfield => (h.relationField_of_mem_addedTo hready.loaded hfield).1)
    (fun _ _ hfield => (h.relationField_of_mem_addedTo hready.loaded hfield).2.1)

section

variable (hsealable : Sealable schema)

include hsealable

/-- **An input type can be read back**: it has the documentation of the object type, and its fields
take no arguments. -/
theorem isReadable_input {object : TypeDef} (hobject : object ∈ schema.userObjects) :
    (inputType (schema.userObjects.map (·.name))
      (object.pushFields (TypeMap.addedTo added object.name))).isReadable = true := by
  obtain ⟨hplain, hfields, -⟩ := TypeDef.isReadable_iff.mp
    (h.isReadable_withRelations hready (mem_declaredTypes_of_mem_userObjects hobject))
  obtain ⟨hnonempty, hdescriptions⟩ := hfields (by
    rw [TypeDef.pushFields, kind_of_mem_userObjects hobject]
    simp)
  refine TypeDef.isReadable_iff.mpr ⟨hplain, fun _ => ⟨mt List.map_eq_nil_iff.mp hnonempty,
    List.forall_mem_map.mpr fun field hfield => ?_⟩,
    fun _ => List.forall_mem_map.mpr fun field hfield => ?_⟩
  · rw [(@isInputFieldOf_inputField schema field).description_eq]
    exact hdescriptions field hfield
  · rw [(@isInputFieldOf_inputField schema field).arguments_eq]
    rcases List.mem_append.mp hfield with hdeclared | hadded
    · exact hsealable.arguments object hobject field hdeclared
    · exact (h.relationField_of_mem_addedTo hready.loaded hadded).2.1

/-- The root of mutations can be read back if there are any. -/
theorem isReadable_mutation (hmutations : result.schema.hasMutations = true) :
    result.schema.mutation.isReadable = true := by
  have hadmits := h.admitsMutations hready hsealable hmutations
  have hnonempty : result.schema.mutation.fields ≠ [] := by
    simpa [Schema.hasMutations] using hmutations
  rw [h.mutation_eq] at hnonempty ⊢
  refine TypeDef.isReadable_iff.mpr ⟨hadmits.plain, fun _ => ⟨hnonempty,
    List.forall_mem_append.mpr ⟨fun field hfield => ?_, fun field hfield => ?_⟩⟩,
    fun hinput => ?_⟩
  · have hold := hready.seals.readable _
      (Schema.mutation_mem_declaredTypes (Schema.hasMutations_of_mem hfield))
    exact ((TypeDef.isReadable_iff.mp hold).2.1 (by rw [hadmits.kind]; simp)).2 field hfield
  · obtain ⟨type, -, hmutation⟩ := List.mem_flatMap.mp hfield
    rw [description_of_mem_mutationFields hmutation]
    rfl
  · cases hadmits.kind.symm.trans hinput

/-- **The text of an augmented schema can be read back.** -/
theorem isReadable {type : TypeDef} (htype : type ∈ result.schema.declaredTypes) :
    type.isReadable = true := by
  rcases Schema.mem_declaredTypes_iff.mp htype with hown | rfl | ⟨hmutations, rfl⟩
  · rcases (h.mem_ownTypes_iff hready.loaded.keyed).mp hown with
      ⟨old, hold, rfl⟩ | ⟨name, hname, rfl⟩ | ⟨object, hobject, rfl⟩
    · exact h.isReadable_withRelations hready (Schema.mem_declaredTypes_iff.mpr (Or.inl hold))
    · rfl
    · exact h.isReadable_input hready hsealable hobject
  · have hkind := (hready.seals.kind_roots hready.loaded.isWritable).1
    rw [h.query_eq]
    refine isReadable_pushFields (hready.seals.readable _ Schema.query_mem_declaredTypes)
      (fun field hfield => ?_) (fun hinput => ?_)
    · obtain ⟨type, -, hquery⟩ := List.mem_flatMap.mp hfield
      exact description_of_mem_queryFields hquery
    · cases hkind.symm.trans hinput
  · exact h.isReadable_mutation hready hsealable hmutations

/-! ### Required types -/

/-- What an input type requires: scalars, and the input types of what its object type requires. -/
theorem required_cases {object : TypeDef} (hobject : object ∈ schema.userObjects)
    {field : FieldDef}
    (hfield : field ∈ (object.pushFields (TypeMap.addedTo added object.name)).fields)
    {leaf : String}
    (hleaf : (inputField (schema.userObjects.map (·.name)) field).type = .named leaf false) :
    nameInSdl leaf ∈ standardScalars ∨ ∃ required ∈ schema.userObjects,
      nameInSdl leaf = inputTypeName required.name ∧
        schema.Requires object.name required.name := by
  obtain ⟨original, horiginal, hname⟩ := type_eq_of_inputField hleaf
  have hdeclared : field ∈ object.fields := by
    refine (List.mem_append.mp hfield).resolve_right fun hadded => ?_
    exact (h.relationField_of_mem_addedTo hready.loaded hadded).2.2 _ _ horiginal
  split at hname
  · rename_i hother
    obtain ⟨required, hrequired, rfl⟩ := List.mem_map.mp hother
    rw [hname, nameInSdl_of_isName
      (isName_inputTypeName (hready.isStem hsealable hrequired).1)]
    exact Or.inr ⟨required, hrequired, rfl, object, (mem_userObjects_iff.mp hobject).1,
      kind_of_mem_userObjects hobject, rfl, field, hdeclared, horiginal⟩
  · rename_i hother
    have hstandard := hready.leafName_mem_of_mem_fields hobject hdeclared
    rw [horiginal, TypeRef.leafName] at hstandard
    have hscalar := hstandard.resolve_right hother
    have hwritten : ∀ name ∈ standardScalars, nameInSdl name = name := by decide
    rw [hname, hwritten _ hscalar]
    exact Or.inl hscalar

/-- **What a type requires after augmentation**: an input type that was there requires what it did
require, and one that is added requires scalars and the input types of what its object type
requires. -/
theorem leads_cases {first second : String}
    (hleads : References.Leads result.schema.requirements first second) :
    References.Leads schema.requirements first second ∨
      ∃ object ∈ schema.userObjects, first = inputTypeName object.name ∧
        (second ∈ standardScalars ∨ ∃ required ∈ schema.userObjects,
          second = inputTypeName required.name ∧ schema.Requires object.name required.name) := by
  have hloaded := hready.loaded
  obtain ⟨type, htype, hkind, rfl, field, hfield, leaf, hleaf, rfl⟩ :=
    Schema.leads_requirements_iff.mp hleads
  rcases Schema.mem_declaredTypes_iff.mp htype with hown | rfl | ⟨hmutations, rfl⟩
  · rcases (h.mem_ownTypes_iff hloaded.keyed).mp hown with
      ⟨old, hold, rfl⟩ | ⟨name, hname, rfl⟩ | ⟨object, hobject, rfl⟩
    · have hdeclared : field ∈ old.fields := by
        refine (List.mem_append.mp hfield).resolve_right fun hadded => ?_
        exact (h.relationField_of_mem_addedTo hloaded hadded).2.2 _ _ hleaf
      exact Or.inl (Schema.leads_requirements_iff.mpr ⟨old,
        Schema.mem_declaredTypes_iff.mpr (Or.inl hold), hkind, rfl, field, hdeclared, leaf, hleaf,
        rfl⟩)
    · cases hkind
    · obtain ⟨original, horiginal, rfl⟩ := List.mem_map.mp hfield
      exact Or.inr ⟨object, hobject, nameInSdl_inputType (hready.isStem hsealable hobject).1,
        h.required_cases hready hsealable hobject horiginal hleaf⟩
  · have hquery := (hready.seals.kind_roots hloaded.isWritable).1
    rw [h.query_eq] at hkind
    cases hquery.symm.trans hkind
  · have hmutation := (h.admitsMutations hready hsealable hmutations).kind
    rw [h.mutation_eq] at hkind
    cases hmutation.symm.trans hkind

/-- **Which types require each other after augmentation**, directly or through others: those that
did so before, and input types that are added where their object types do. -/
theorem transGen_leads {first second : String}
    (hleads : TransGen (References.Leads result.schema.requirements) first second) :
    TransGen (References.Leads schema.requirements) first second ∨
      ∃ object ∈ schema.userObjects, first = inputTypeName object.name ∧
        (second ∈ standardScalars ∨ ∃ required ∈ schema.userObjects,
          second = inputTypeName required.name ∧
            TransGen schema.Requires object.name required.name) := by
  have hscalar : ∀ name, inputTypeName name ∉ standardScalars := inputTypeName_notMem (by decide)
  induction hleads with
  | single hstep =>
      refine (h.leads_cases hready hsealable hstep).imp .single ?_
      rintro ⟨object, hobject, hfirst, hsecond⟩
      exact ⟨object, hobject, hfirst, hsecond.imp_right fun ⟨required, hmem, hname, hrequires⟩ =>
        ⟨required, hmem, hname, .single hrequires⟩⟩
  | tail _ hstep ih =>
      rcases h.leads_cases hready hsealable hstep with hold | ⟨object, hobject, rfl, hsecond⟩
      · obtain ⟨hnotScalar, hnotInput⟩ := hready.ne_inputTypeName_of_leads hold
        refine ih.imp (·.tail hold) ?_
        rintro ⟨_, -, -, hstandard | ⟨required, hmem, hname, -⟩⟩
        · exact absurd hstandard hnotScalar
        · exact absurd hname (hnotInput required hmem).1
      · rcases ih with hold | ⟨origin, horigin, hfirst, hstandard | ⟨required, hmem, hname, hchain⟩⟩
        · -- What was required before is no input type that is added.
          obtain ⟨_, -, hlast⟩ := TransGen.tail'_iff.mp hold
          exact absurd rfl ((hready.ne_inputTypeName_of_leads hlast).2 object hobject).2
        · exact absurd hstandard (hscalar _)
        · refine Or.inr ⟨origin, horigin, hfirst, hsecond.imp_right ?_⟩
          rintro ⟨next, hnext, hnextName, hrequires⟩
          rw [inputTypeName_injective hname] at hrequires
          exact ⟨next, hnext, hnextName, hchain.tail hrequires⟩

/-! ### Validity -/

/-- **After augmentation a schema is valid**, where what is added has a place in a document and no
object type requires itself. -/
theorem seals (hacyclic : ∀ name, ¬TransGen schema.Requires name name) :
    result.schema.Seals := by
  have hwritable := h.isWritable hready.loaded
  have hdistinct := h.isDistinct hready hsealable
  have hroots : result.schema.query.kind = .object ∧
      (result.schema.hasMutations = true → result.schema.mutation.kind = .object) := by
    rw [h.query_eq, h.mutation_eq]
    exact ⟨(hready.seals.kind_roots hready.loaded.isWritable).1,
      fun hmutations => (h.admitsMutations hready hsealable hmutations).kind⟩
  have hgrounded : ∀ name,
      ¬TransGen (References.Leads result.schema.requirements) name name := by
    intro name hcycle
    rcases h.transGen_leads hready hsealable hcycle with
      hold | ⟨object, hobject, rfl, hstandard | ⟨required, -, hname, hchain⟩⟩
    · exact hready.seals.not_leads hready.loaded.isWritable name hold
    · exact inputTypeName_notMem (by decide) object.name hstandard
    · rw [← inputTypeName_injective hname] at hchain
      exact hacyclic _ hchain
  exact ⟨fun _ htype => h.isReadable hready hsealable htype, hdistinct,
    (Schema.isValid_iff hwritable hdistinct).mpr
      ⟨hroots, fun _ htype => h.allowsType hready hsealable htype, hgrounded⟩⟩

end

/-- If a schema is valid after augmentation, what has been added has a place in a document. -/
theorem sealable_of_seals (hseals : result.schema.Seals) : Sealable schema := by
  have hwritable := h.isWritable hready.loaded
  refine ⟨fun object hobject field hfield => ?_, fun object hobject hname => ?_,
    fun object hobject => ?_, fun hobjects => ?_⟩
  · rw [← (@isInputFieldOf_inputField schema field).arguments_eq]
    exact (TypeDef.isReadable_iff.mp (hseals.readable _
      (h.inputType_mem_declaredTypes hready hobject))).2.2 rfl _
      (List.mem_map_of_mem (List.mem_append_left _ hfield))
  · have hfree := (hseals.allowsType hwritable (h.inputType_mem_declaredTypes hready hobject)).free
    rw [nameInSdl_inputType (hready.loaded.isDeclared hobject).1.goesBy.name, hname] at hfree
    exact hfree (by rw [IsReserved]; decide)
  · have hnames := ((h.nodup_iff hready).mp hseals.distinct.nodup).1 _
      (h.inputType_mem_ownTypes hready hobject)
    exact ⟨hnames.1, hnames.2 (h.hasMutations_iff.mpr (Or.inr (List.ne_nil_of_mem hobject)))⟩
  · have hadmits := hseals.admitsMutations hwritable (h.hasMutations_iff.mpr (Or.inr hobjects))
    have hname := hadmits.name
    have hkind := hadmits.kind
    have hbuiltin := hadmits.builtin
    have hfree := hadmits.free
    have hplain := hadmits.plain
    rw [h.mutation_eq] at hname hkind hbuiltin hfree hplain
    rw [h.query_eq] at hname
    exact ⟨hkind, hname, hbuiltin, hfree, hplain⟩

end Appended

/-- A schema that has been read, is valid and has been augmented is ready for that. -/
theorem ready_of_augment {text : String} {result : Augmentation}
    (hload : Schema.ofText text = .ok schema) (hvalid : ∃ valid, schema.toValid = .ok valid)
    (hmark : ∀ type ∈ schema.declarations, ¬ "sdk_".toList <+: type.name.toList)
    (haugment : augment schema = .ok result) :
    Ready schema ∧ ∃ added types, Appended schema result added types := by
  have hloaded := Schema.loaded_of_ofText hload
  obtain ⟨hresolved, hcollision⟩ :=
    resolved_and_collisionFree hloaded.keyed hloaded.notMem_keys haugment
  have hmarkers : ∀ name ∈ mutationResults.map nameInSdl, "sdk_".toList <+: name.toList := by
    decide
  exact
    ⟨{ loaded := hloaded
       seals := (Schema.exists_toValid_iff hloaded.isWritable).mp hvalid
       resolved := hresolved
       collisionFree := hcollision
       unmarked := fun type htype hmem => hmark type htype (hmarkers _ hmem) },
      exists_appended hloaded.keyed hloaded.notMem_keys haugment⟩

end Augment

/-- **When a valid schema is valid after augmentation.** Let a schema be read from a text and be
valid, let no object type require itself and no name begin with the prefix of markers. If it can
be augmented, then the augmented schema is valid exactly when the fields of its object types take
no arguments, no object type is called by a single underscore, no root has the name of an input
type, and there is a root for the mutations. -/
theorem augment_seals_iff {text : String} {schema : Schema} {result : Augmentation}
    (hload : Schema.ofText text = .ok schema) (hvalid : ∃ valid, schema.toValid = .ok valid)
    (hacyclic : ∀ name, ¬TransGen schema.Requires name name)
    (hmark : ∀ type ∈ schema.declarations, ¬ "sdk_".toList <+: type.name.toList)
    (haugment : augment schema = .ok result) :
    (∃ valid, result.schema.toValid = .ok valid) ↔ Augment.Sealable schema := by
  obtain ⟨hready, added, types, happended⟩ :=
    Augment.ready_of_augment hload hvalid hmark haugment
  rw [Schema.exists_toValid_iff (happended.isWritable hready.loaded)]
  exact ⟨happended.sealable_of_seals hready,
    fun hsealable => happended.seals hready hsealable hacyclic⟩

/-- A schema of two object types, one of which requires the other. -/
def berthSchema : Schema where
  types := .ofList (standardScalars.map .givenScalar ++
    [{ name := "Harbor", fields := [{ name := "depth", type := .named "Int" false }] },
     { name := "Ship", fields := [{ name := "home", type := .named "Harbor" false }] }])
  query := { name := "Query", fields := [{ name := "version", type := .named "Int" true }] }
  mutation := { name := "Mutation" }

/-- The schema as it is declared. -/
def berthText : String :=
  "type Query { version: Int } type Harbor { depth: Int! } type Ship { home: Harbor! }"

set_option maxRecDepth 2000 in
theorem ofText_berthText : Schema.ofText berthText = .ok berthSchema := by cbv

/-- The schema is valid as a document. -/
theorem seals_berthSchema : berthSchema.Seals := by
  refine ⟨by decide, ⟨by decide, by decide, ?_⟩, by decide⟩
  simp only [TypeDef.DistinctFields]
  decide

/-- None of its object types requires itself. -/
theorem not_transGen_requires_berthSchema (name : String) :
    ¬TransGen berthSchema.Requires name name :=
  (@Schema.isGrounded_objectRequirements_iff berthSchema).mp (by decide) name

/-- What augmentation adds to it has a place in a document. -/
theorem sealable_berthSchema : Augment.Sealable berthSchema :=
  ⟨by decide, by decide, by decide, fun _ =>
    ⟨rfl, by decide, by decide, by rw [IsReserved]; decide, rfl⟩⟩

/-- Once augmented, the schema is made valid, with its own types. -/
theorem exists_toValid_of_augment_berthSchema {result : Augmentation}
    (haugment : augment berthSchema = .ok result) :
    ∃ valid, result.schema.toValid = .ok valid ∧
      valid.declarations = result.schema.toDeclarations := by
  have hloaded := Schema.loaded_of_ofText ofText_berthText
  obtain ⟨hready, added, types, happended⟩ := Augment.ready_of_augment ofText_berthText
    ((Schema.exists_toValid_iff hloaded.isWritable).mpr seals_berthSchema) (by decide) haugment
  exact Schema.exists_toValid_of_seals (happended.isWritable hloaded)
    (happended.seals hready sealable_berthSchema not_transGen_requires_berthSchema)

/-- The two types and their relation lead to a valid schema. -/
theorem augment_seals_iff_berth :
    ∃ schema result, Schema.ofText berthText = .ok schema ∧
      (∃ valid, schema.toValid = .ok valid) ∧
      (∀ name, ¬TransGen schema.Requires name name) ∧
      (∀ type ∈ schema.declarations, ¬ "sdk_".toList <+: type.name.toList) ∧
      augment schema = .ok result ∧ Augment.Sealable schema ∧
      ∃ valid, result.schema.toValid = .ok valid := by
  have hloaded := Schema.loaded_of_ofText ofText_berthText
  have hvalid := (Schema.exists_toValid_iff hloaded.isWritable).mpr seals_berthSchema
  have hmark : ∀ type ∈ berthSchema.declarations, ¬ "sdk_".toList <+: type.name.toList := by
    decide
  obtain ⟨result, haugment⟩ := (Augment.exists_augment_eq_ok_iff hloaded.keyed
    hloaded.notMem_keys).mpr ⟨by decide, by decide⟩
  exact ⟨_, result, ofText_berthText, hvalid, not_transGen_requires_berthSchema, hmark, haugment,
    sealable_berthSchema, (augment_seals_iff ofText_berthText hvalid
      not_transGen_requires_berthSchema hmark haugment).mpr sealable_berthSchema⟩

/-- A schema with an object type one of whose fields takes an argument. -/
def posterSchema : Schema where
  types := .ofList (standardScalars.map .givenScalar ++
    [{ name := "Movie", fields := [
        { name := "poster", type := .named "String" true
          arguments := [{ name := "size", type := .named "Int" true }] }] }])
  query := { name := "Query", fields := [{ name := "version", type := .named "Int" true }] }
  mutation := { name := "Mutation" }

/-- The schema as it is declared. -/
def posterText : String := "type Query { version: Int } type Movie { poster(size: Int): String }"

set_option maxRecDepth 2000 in
theorem ofText_posterText : Schema.ofText posterText = .ok posterSchema := by cbv

/-- **The argument of a field makes a valid schema invalid**: it becomes that of a field of an input
type. -/
theorem augment_unseals_poster :
    ∃ schema result, Schema.ofText posterText = .ok schema ∧
      (∃ valid, schema.toValid = .ok valid) ∧
      (∀ name, ¬TransGen schema.Requires name name) ∧
      (∀ type ∈ schema.declarations, ¬ "sdk_".toList <+: type.name.toList) ∧
      augment schema = .ok result ∧ ¬∃ valid, result.schema.toValid = .ok valid := by
  have hloaded := Schema.loaded_of_ofText ofText_posterText
  have hseals : posterSchema.Seals := by
    refine ⟨by decide, ⟨by decide, by decide, ?_⟩, by decide⟩
    simp only [TypeDef.DistinctFields]
    decide
  have hvalid := (Schema.exists_toValid_iff hloaded.isWritable).mpr hseals
  obtain ⟨result, haugment⟩ := (Augment.exists_augment_eq_ok_iff hloaded.keyed
    hloaded.notMem_keys).mpr ⟨by decide, by decide⟩
  have hmark : ∀ type ∈ posterSchema.declarations, ¬ "sdk_".toList <+: type.name.toList := by
    decide
  obtain ⟨hready, added, types, happended⟩ :=
    Augment.ready_of_augment ofText_posterText hvalid hmark haugment
  refine ⟨_, result, ofText_posterText, hvalid,
    (@Schema.isGrounded_objectRequirements_iff posterSchema).mp (by decide), hmark, haugment, ?_⟩
  rw [Schema.exists_toValid_iff (happended.isWritable hloaded)]
  intro hsealed
  have harguments : ¬∀ object ∈ posterSchema.userObjects, ∀ field ∈ object.fields,
      field.arguments = [] := by decide
  exact harguments (happended.sealable_of_seals hready hsealed).arguments

end ClientSdk
