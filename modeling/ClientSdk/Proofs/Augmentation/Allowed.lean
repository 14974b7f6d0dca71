import ClientSdk.Proofs.Augmentation.Written

/-!
# What an Augmented Schema Declares Is Allowed

What augmentation adds to a valid schema refers to types of the right kind in any case. It has a
place in a document if, beyond that, its names can be used: names that are continued must not
become reserved, and input types and mutations need names that the roots leave free. Augmentation
itself does not check this.

## Main definitions

* `Augment.Sealable`: what is added to a schema has a place in a document.

## Main results

* `Augment.Appended.isDistinct`: nothing is declared twice after augmentation.
* `Augment.Appended.allowsType`: what is declared after augmentation is allowed.
-/

namespace ClientSdk

open Token

namespace Augment

variable {schema : Schema}

/-- What is added to the schema for its object types has a place in a document. -/
structure Sealable (schema : Schema) : Prop where
  /-- The fields of object types take no arguments. -/
  arguments : ∀ object ∈ schema.userObjects, ∀ field ∈ object.fields, field.arguments = []
  /-- No object type is called by a single underscore. -/
  names : ∀ object ∈ schema.userObjects, object.name ≠ "_"
  /-- No root has the name of an input type. -/
  roots : ∀ object ∈ schema.userObjects, inputTypeName object.name ≠ schema.query.name ∧
    inputTypeName object.name ≠ schema.mutation.name
  /-- There is a root for the mutations. -/
  mutations : schema.userObjects ≠ [] → schema.AdmitsMutations

/-! ### Schemas before augmentation -/

/-- The name of an input type is written as it is. -/
theorem nameInSdl_inputType {object : TypeDef} (hname : isName object.name = true)
    {objects : List String} {fields : List FieldDef} :
    nameInSdl (inputType objects (object.pushFields fields)).name = inputTypeName object.name :=
  nameInSdl_of_isName (isName_inputTypeName hname)

/-- No type of every schema has the name of an input type. -/
theorem inputTypeName_notMem_builtin (name : String) :
    inputTypeName name ∉ BuiltIn.types.map (·.name) :=
  inputTypeName_notMem (by decide) name

/-- An object type is declared in schema text, and it is no root. -/
theorem mem_ownTypes_of_mem_userObjects {object : TypeDef}
    (hobject : object ∈ schema.userObjects) : object ∈ schema.ownTypes := by
  refine List.mem_filter.mpr ⟨(mem_userObjects_iff.mp hobject).1, ?_⟩
  rw [TypeDef.isScalar, kind_of_mem_userObjects hobject]
  rfl

/-- An object type is declared in schema text. -/
theorem mem_declaredTypes_of_mem_userObjects {object : TypeDef}
    (hobject : object ∈ schema.userObjects) : object ∈ schema.declaredTypes :=
  Schema.mem_declaredTypes_iff.mpr (Or.inl (mem_ownTypes_of_mem_userObjects hobject))

namespace Ready

variable (h : Ready schema)

include h

/-- What schema text declares is allowed there. -/
theorem allowsType {type : TypeDef} (htype : type ∈ schema.declaredTypes) :
    schema.AllowsType type :=
  h.seals.allowsType h.loaded.isWritable htype

/-- The names of object types can be continued. -/
theorem isStem (hsealable : Sealable schema) {object : TypeDef}
    (hobject : object ∈ schema.userObjects) : isName object.name = true ∧ IsStem object.name := by
  have hname := (h.loaded.isDeclared hobject).1.goesBy.name
  have hfree := (h.allowsType (mem_declaredTypes_of_mem_userObjects hobject)).free
  rw [nameInSdl_of_isName hname] at hfree
  exact ⟨hname, (isStem_iff hname).mpr ⟨hfree, hsealable.names object hobject⟩⟩

/-- **The fields of object types** are scalars of every schema or object types. -/
theorem leafName_mem_of_mem_fields {object : TypeDef} (hobject : object ∈ schema.userObjects)
    {field : FieldDef} (hfield : field ∈ object.fields) :
    field.type.leafName ∈ standardScalars ∨
      field.type.leafName ∈ schema.userObjects.map (·.name) := by
  obtain ⟨leaf, hget⟩ := Option.isSome_iff_exists.mp
    (TypeMap.contains_iff.mpr (h.resolved object hobject field hfield).1)
  have hvalue := Schema.mem_values_of_get? hget
  rw [← h.loaded.keyed.name_eq hget]
  rcases h.loaded.values leaf hvalue with ⟨hstandard, -⟩ | ⟨hdeclared, -⟩
  · exact Or.inl hstandard
  · refine Or.inr (List.mem_map_of_mem (mem_userObjects_iff.mpr ⟨hvalue, ?_⟩))
    have hleaf : leaf ∈ schema.declaredTypes := Schema.mem_declaredTypes_of_mem_values hvalue
      (beq_eq_false_iff_ne.mpr hdeclared.kind)
    have hanswers := ((h.allowsType (mem_declaredTypes_of_mem_userObjects hobject)).fields
      (kind_of_mem_userObjects hobject) field hfield).answers
    rw [← h.loaded.keyed.name_eq hget, h.seals.distinct.answers_name_iff hleaf] at hanswers
    cases hkind : leaf.kind with
    | object => rw [TypeDef.isUserObject, hdeclared.builtin, hkind]; rfl
    | input => exact absurd hkind hanswers
    | scalar => exact absurd hkind hdeclared.kind

/-- What can be passed has not the name of an input type that is added. -/
theorem ne_inputTypeName_of_takes {name : String} (hname : isName name = true)
    (htakes : schema.Takes name) {object : TypeDef} (hobject : object ∈ schema.userObjects) :
    name ≠ inputTypeName object.name := by
  rintro rfl
  have hwritable := h.loaded.isWritable
  rcases (Schema.takes_iff h.seals.distinct).mp htakes with
    ⟨type, htype, hsame, hkind⟩ | ⟨type, htype, hsame, -⟩
  · have hwritten := (h.loaded.goesBy (Schema.mem_declarations_of_mem_declaredTypes htype)).name
    rw [nameInSdl_of_isName hwritten, nameInSdl_of_isName hname] at hsame
    have hroots := h.seals.kind_roots hwritable
    rcases Schema.mem_declaredTypes_iff.mp htype with hown | rfl | ⟨hmutations, rfl⟩
    · refine h.collisionFree.inputTypeName_notMem_keys hobject ?_
      rw [← hsame]
      exact h.loaded.keyed.name_mem_keys (List.mem_filter.mp hown).1
    · exact hkind hroots.1
    · exact hkind (hroots.2 hmutations)
  · rw [nameInSdl_of_isName hname] at hsame
    exact inputTypeName_notMem_builtin object.name (hsame ▸ List.mem_map_of_mem htype)

end Ready

namespace Appended

variable {result : Augmentation} {added : List (String × FieldDef)} {types : List TypeDef}
  (h : Appended schema result added types) (hready : Ready schema)

include h hready

/-! ### What is declared after augmentation -/

/-- With its relation fields, a type is declared. -/
theorem pushFields_mem_declaredTypes {old : TypeDef} (hold : old ∈ schema.ownTypes) :
    old.pushFields (TypeMap.addedTo added old.name) ∈ result.schema.declaredTypes :=
  Schema.mem_declaredTypes_iff.mpr
    (Or.inl ((h.mem_ownTypes_iff hready.loaded.keyed).mpr (Or.inl ⟨old, hold, rfl⟩)))

/-- A marker is declared. -/
theorem marker_mem_declaredTypes {name : String} (hname : name ∈ mutationResults) :
    .givenScalar name ∈ result.schema.declaredTypes :=
  Schema.mem_declaredTypes_iff.mpr
    (Or.inl ((h.mem_ownTypes_iff hready.loaded.keyed).mpr (Or.inr (Or.inl ⟨name, hname, rfl⟩))))

/-- An input type is declared, and it is no root. -/
theorem inputType_mem_ownTypes {object : TypeDef} (hobject : object ∈ schema.userObjects) :
    inputType (schema.userObjects.map (·.name))
      (object.pushFields (TypeMap.addedTo added object.name)) ∈ result.schema.ownTypes :=
  (h.mem_ownTypes_iff hready.loaded.keyed).mpr (Or.inr (Or.inr ⟨object, hobject, rfl⟩))

/-- An input type is declared. -/
theorem inputType_mem_declaredTypes {object : TypeDef} (hobject : object ∈ schema.userObjects) :
    inputType (schema.userObjects.map (·.name))
      (object.pushFields (TypeMap.addedTo added object.name)) ∈ result.schema.declaredTypes :=
  Schema.mem_declaredTypes_iff.mpr (Or.inl (h.inputType_mem_ownTypes hready hobject))

/-- What is declared before augmentation is declared afterwards, with the same name and kind. -/
theorem exists_mem_declaredTypes {type : TypeDef} (htype : type ∈ schema.declaredTypes) :
    ∃ type' ∈ result.schema.declaredTypes, type'.name = type.name ∧ type'.kind = type.kind := by
  rcases Schema.mem_declaredTypes_iff.mp htype with hown | rfl | ⟨hmutations, rfl⟩
  · exact ⟨_, h.pushFields_mem_declaredTypes hready hown, rfl, rfl⟩
  · exact ⟨_, Schema.query_mem_declaredTypes, by rw [h.query_eq]; exact ⟨rfl, rfl⟩⟩
  · exact ⟨_, Schema.mutation_mem_declaredTypes (h.hasMutations_iff.mpr (Or.inl hmutations)),
      by rw [h.mutation_eq]; exact ⟨rfl, rfl⟩⟩

/-- The fields of an object type with its relation fields are scalars of every schema or object
types. -/
theorem leafName_mem_of_mem_pushFields {object : TypeDef} (hobject : object ∈ schema.userObjects)
    {field : FieldDef}
    (hfield : field ∈ (object.pushFields (TypeMap.addedTo added object.name)).fields) :
    field.type.leafName ∈ standardScalars ∨
      field.type.leafName ∈ schema.userObjects.map (·.name) := by
  rcases List.mem_append.mp hfield with hdeclared | hrelation
  · exact hready.leafName_mem_of_mem_fields hobject hdeclared
  · obtain ⟨-, owner, howner, rfl⟩ := h.exists_owner_of_mem_addedTo hready.loaded.keyed
      hready.loaded.notMem_keys hrelation
    exact Or.inr (List.mem_map_of_mem howner)

/-- A filter is a scalar of every schema. -/
theorem leafName_filterArgument_mem {object : TypeDef} (hobject : object ∈ schema.userObjects)
    {field : FieldDef}
    (hfield : field ∈ (object.pushFields (TypeMap.addedTo added object.name)).fields) :
    (filterArgument schema field).type.leafName ∈ standardScalars := by
  have hstring : "String" ∈ standardScalars := by decide
  rcases h.leafName_mem_of_mem_pushFields hready hobject hfield with hstandard | hother
  · obtain ⟨leaf, -, hleaf⟩ := (isFilterOf_filterArgument
      (hready.loaded.standard _ hstandard)).leafName_eq
    rw [hleaf]
    split
    · exact hstandard
    · exact hstring
  · obtain ⟨other, hmem, hname⟩ := List.mem_map.mp hother
    have hget := get?_of_mem_userObjects hready.loaded.keyed hmem
    rw [hname] at hget
    obtain ⟨leaf, hleaf, heq⟩ := (isFilterOf_filterArgument hget).leafName_eq
    obtain rfl := Option.some.inj (hget.symm.trans hleaf)
    rw [heq, TypeDef.isScalar, kind_of_mem_userObjects hmem]
    exact hstring

/-! ### Distinct names after augmentation -/

/-- When the names of types stay distinct. -/
theorem nodup_iff :
    (result.schema.declaredTypes.map fun type => nameInSdl type.name).Nodup ↔
      (∀ type ∈ result.schema.ownTypes, type.name ≠ schema.query.name ∧
        (result.schema.hasMutations = true → type.name ≠ schema.mutation.name)) ∧
      (result.schema.hasMutations = true → schema.query.name ≠ schema.mutation.name) := by
  have hquery : result.schema.query.name = schema.query.name := by
    rw [h.query_eq]
    rfl
  have hmutation : result.schema.mutation.name = schema.mutation.name := by
    rw [h.mutation_eq]
    rfl
  rw [Schema.nodup_nameInSdl_iff (h.keyed hready.loaded.keyed)
    (fun _ hfirst _ hsecond => h.name_eq_of_nameInSdl_eq hready hfirst hsecond), hquery, hmutation]

variable (hsealable : Sealable schema)

include hsealable

/-- The root of mutations is declared only where it can be. -/
theorem admitsMutations (hmutations : result.schema.hasMutations = true) :
    schema.AdmitsMutations := by
  rcases h.hasMutations_iff.mp hmutations with hold | hobjects
  · exact hready.seals.admitsMutations hready.loaded.isWritable hold
  · exact hsealable.mutations hobjects

/-- No type has the name of a root. -/
theorem name_ne_of_mem_ownTypes {type : TypeDef} (htype : type ∈ result.schema.ownTypes) :
    type.name ≠ schema.query.name ∧ type.name ≠ schema.mutation.name := by
  have hloaded := hready.loaded
  have hown : ∀ old ∈ schema.ownTypes,
      old.name ≠ schema.query.name ∧ old.name ≠ schema.mutation.name :=
    fun old hold => (hloaded.isDeclared_of_mem_ownTypes hold).2
  exact
    ⟨(h.ownTypes_ne_iff hloaded.keyed hloaded.roots.1.name fun old hold => (hown old hold).1).mpr
        (fun object hobject => (hsealable.roots object hobject).1) type htype,
      (h.ownTypes_ne_iff hloaded.keyed hloaded.roots.2.name fun old hold => (hown old hold).2).mpr
        (fun object hobject => (hsealable.roots object hobject).2) type htype⟩

/-- Nothing that is declared has the name of a type of every schema. -/
theorem isTypeName_eq_false {type : TypeDef} (htype : type ∈ result.schema.declaredTypes) :
    BuiltIn.isTypeName (nameInSdl type.name) = false := by
  rcases Schema.mem_declaredTypes_iff.mp htype with hown | rfl | ⟨hmutations, rfl⟩
  · rcases (h.mem_ownTypes_iff hready.loaded.keyed).mp hown with
      ⟨old, hold, rfl⟩ | ⟨name, hname, rfl⟩ | ⟨object, hobject, rfl⟩
    · exact hready.seals.distinct.builtin old (Schema.mem_declaredTypes_iff.mpr (Or.inl hold))
    · have hmarkers : ∀ name ∈ mutationResults,
          BuiltIn.isTypeName (nameInSdl name) = false := by decide
      exact hmarkers name hname
    · rw [nameInSdl_inputType (hready.isStem hsealable hobject).1, BuiltIn.isTypeName,
        List.any_eq_false]
      intro type htype hsame
      exact inputTypeName_notMem_builtin object.name
        (beq_iff_eq.mp hsame ▸ List.mem_map_of_mem htype)
  · rw [h.query_eq]
    exact hready.seals.distinct.builtin schema.query Schema.query_mem_declaredTypes
  · rw [h.mutation_eq]
    have hbuiltin := (h.admitsMutations hready hsealable hmutations).builtin
    rwa [← nameInSdl_of_isName hready.loaded.roots.2.name] at hbuiltin

/-- **Nothing is declared twice after augmentation.** -/
theorem isDistinct : result.schema.IsDistinct where
  nodup := (h.nodup_iff hready).mpr
    ⟨fun _ htype => (h.name_ne_of_mem_ownTypes hready hsealable htype).imp_right fun hne _ => hne,
      fun hmutations => (h.admitsMutations hready hsealable hmutations).name⟩
  builtin _ htype := h.isTypeName_eq_false hready hsealable htype
  fields type htype _ := h.distinctFields hready.loaded.keyed
    (hready.loaded.distinctFields hready.seals) hready.loaded.notMem_keys hready.collisionFree type
    (Schema.mem_declarations_of_mem_declaredTypes htype)

/-! ### Fields after augmentation -/

/-- What a name stands for before augmentation, it stands for afterwards, as far as the kind of a
type tells. -/
theorem bodySatisfies {p : TypeBody → Bool}
    (hkind : ∀ first second : TypeDef, first.kind = second.kind →
      p first.toBody = p second.toBody) {name : String}
    (hname : schema.toDeclarations.bodySatisfies p name = true) :
    result.schema.toDeclarations.bodySatisfies p name = true := by
  rw [hready.seals.distinct.bodySatisfies_iff] at hname
  rw [(h.isDistinct hready hsealable).bodySatisfies_iff]
  refine hname.imp_left ?_
  rintro ⟨type, htype, rfl, hp⟩
  obtain ⟨type', htype', hname', hkind'⟩ := h.exists_mem_declaredTypes hready htype
  exact ⟨type', htype', by rw [hname'], by rw [hkind type' type hkind', hp]⟩

/-- What is answered before augmentation is answered afterwards. -/
theorem answers {name : String} (hname : schema.Answers name) : result.schema.Answers name := by
  refine h.bodySatisfies hready hsealable (fun first second hkind => ?_) hname
  rw [Bool.eq_iff_iff, first.isOutput_toBody, second.isOutput_toBody, hkind]

/-- What is passed before augmentation is passed afterwards. -/
theorem takes {name : String} (hname : schema.Takes name) : result.schema.Takes name := by
  refine h.bodySatisfies hready hsealable (fun first second hkind => ?_) hname
  rw [Bool.eq_iff_iff, first.isInput_toBody, second.isInput_toBody, hkind]

/-- A field that is allowed before augmentation is allowed afterwards. -/
theorem allowsField {field : FieldDef} (hfield : schema.AllowsField field) :
    result.schema.AllowsField field :=
  ⟨hfield.free, h.answers hready hsealable hfield.answers,
    fun arg harg => (hfield.takes arg harg).imp_right (h.takes hready hsealable), hfield.nodup⟩

/-- The scalars of every schema are passed. -/
theorem takes_standard {name : String} (hname : name ∈ standardScalars) :
    result.schema.Takes name :=
  ((h.isDistinct hready hsealable).answers_and_takes_standard hname).2

/-- An object type is answered. -/
theorem answers_object {object : TypeDef} (hobject : object ∈ schema.userObjects) :
    result.schema.Answers object.name := by
  have hdeclared := h.pushFields_mem_declaredTypes hready (mem_ownTypes_of_mem_userObjects hobject)
  refine ((h.isDistinct hready hsealable).answers_name_iff hdeclared).mpr ?_
  rw [TypeDef.pushFields, kind_of_mem_userObjects hobject]
  simp

/-- An input type is passed. -/
theorem takes_input {object : TypeDef} (hobject : object ∈ schema.userObjects) :
    result.schema.Takes (inputTypeName object.name) :=
  ((h.isDistinct hready hsealable).takes_name_iff
    (h.inputType_mem_declaredTypes hready hobject)).mpr fun hkind => nomatch hkind

/-- A marker is answered. -/
theorem answers_marker {name : String} (hname : name ∈ mutationResults) :
    result.schema.Answers name :=
  ((h.isDistinct hready hsealable).answers_name_iff
    (h.marker_mem_declaredTypes hready hname)).mpr fun hkind => nomatch hkind

/-- A relation field is allowed. -/
theorem allowsField_relation {key : String} {field : FieldDef}
    (hfield : field ∈ TypeMap.addedTo added key) : result.schema.AllowsField field := by
  obtain ⟨-, owner, howner, rfl⟩ := h.exists_owner_of_mem_addedTo hready.loaded.keyed
    hready.loaded.notMem_keys hfield
  obtain ⟨hname, hstem⟩ := hready.isStem hsealable howner
  refine ⟨?_, h.answers_object hready hsealable howner, fun _ harg => absurd harg List.not_mem_nil,
    List.nodup_nil⟩
  have hplural := (hstem.lower hname).plural (Text.isName_lower hname)
  rw [relationField, String.append_assoc]
  exact hplural _

/-- **The fields of an object type are allowed**, its relation fields included. -/
theorem allowsField_pushFields {object : TypeDef} (hobject : object ∈ schema.userObjects)
    {field : FieldDef}
    (hfield : field ∈ (object.pushFields (TypeMap.addedTo added object.name)).fields) :
    result.schema.AllowsField field := by
  rcases List.mem_append.mp hfield with hdeclared | hrelation
  · have hallows := hready.allowsType (mem_declaredTypes_of_mem_userObjects hobject)
    exact h.allowsField hready hsealable
      (hallows.fields (kind_of_mem_userObjects hobject) field hdeclared)
  · exact h.allowsField_relation hready hsealable hrelation

/-- **The fields of an input type are allowed.** -/
theorem allowsInput_inputField {object : TypeDef} (hobject : object ∈ schema.userObjects)
    {field : FieldDef}
    (hfield : field ∈ (object.pushFields (TypeMap.addedTo added object.name)).fields) :
    result.schema.AllowsInput (inputField (schema.userObjects.map (·.name)) field) := by
  have hinput := @isInputFieldOf_inputField schema field
  have hfree := (h.allowsField_pushFields hready hsealable hobject hfield).free
  have hleaf := hinput.leafName_eq
  refine ⟨hinput.name_eq ▸ hfree, ?_⟩
  split at hleaf
  · rename_i hother
    obtain ⟨other, hmem, hname⟩ := List.mem_map.mp hother
    rw [hleaf, ← hname]
    exact h.takes_input hready hsealable hmem
  · rename_i hother
    rw [hleaf]
    exact h.takes_standard hready hsealable
      ((h.leafName_mem_of_mem_pushFields hready hobject hfield).resolve_right hother)

/-- **The mutations of an object type are allowed.** -/
theorem allowsField_mutation {object : TypeDef} (hobject : object ∈ schema.userObjects)
    {field : FieldDef} (hfield : field ∈ mutationFields object) :
    result.schema.AllowsField field := by
  obtain ⟨hname, hstem⟩ := hready.isStem hsealable hobject
  have hlower := hstem.lower hname
  have hdata : ¬IsReserved "data" ∧ result.schema.Takes (inputTypeName object.name) :=
    ⟨by rw [IsReserved]; decide, h.takes_input hready hsealable hobject⟩
  have hid : ¬IsReserved "id" ∧ result.schema.Takes "String" :=
    ⟨by rw [IsReserved]; decide, h.takes_standard hready hsealable (by decide)⟩
  have hmarkers : insertResult ∈ mutationResults ∧ deleteResult ∈ mutationResults ∧
      updateResult ∈ mutationResults := by decide
  have hanswers : ∀ {name}, name ∈ mutationResults → result.schema.Answers name :=
    fun hname => h.answers_marker hready hsealable hname
  simp only [mutationFields, List.mem_cons, List.not_mem_nil, or_false] at hfield
  rcases hfield with rfl | rfl | rfl
  · exact ⟨hlower _, hanswers hmarkers.1, List.forall_mem_singleton.mpr hdata, by simp⟩
  · exact ⟨hlower _, hanswers hmarkers.2.1, List.forall_mem_singleton.mpr hid, by simp⟩
  · exact ⟨hlower _, hanswers hmarkers.2.2,
      List.forall_mem_cons.mpr ⟨hid, List.forall_mem_singleton.mpr hdata⟩, by simp⟩

/-- **The queries of an object type are allowed.** -/
theorem allowsField_query {object : TypeDef} (hobject : object ∈ schema.userObjects)
    {field : FieldDef}
    (hfield : field ∈ queryFields schema
      (object.pushFields (TypeMap.addedTo added object.name))) :
    result.schema.AllowsField field := by
  obtain ⟨hname, hstem⟩ := hready.isStem hsealable hobject
  have hlower := hstem.lower hname
  have hanswers := h.answers_object hready hsealable hobject
  have hfilters : ∀ arg ∈ (object.pushFields (TypeMap.addedTo added object.name)).fields.map
      (filterArgument schema), ¬IsReserved arg.name ∧ result.schema.Takes arg.type.leafName := by
    rw [List.forall_mem_map]
    intro field hfield
    exact ⟨(h.allowsField_pushFields hready hsealable hobject hfield).free,
      h.takes_standard hready hsealable (h.leafName_filterArgument_mem hready hobject hfield)⟩
  have hnodup : (((object.pushFields (TypeMap.addedTo added object.name)).fields.map
      (filterArgument schema)).map (·.name)).Nodup := by
    rw [List.map_map]
    exact h.distinctFields_pushFields hready.loaded.keyed
      (hready.loaded.distinctFields hready.seals) hready.loaded.notMem_keys
      (mem_userObjects_iff.mp hobject).1
  simp only [queryFields, List.mem_cons, List.not_mem_nil, or_false] at hfield
  rcases hfield with rfl | rfl
  · exact ⟨hlower.not_isReserved, hanswers, hfilters, hnodup⟩
  · exact ⟨(hlower.plural (Text.isName_lower hname)).not_isReserved, hanswers, hfilters, hnodup⟩

/-! ### Types after augmentation -/

/-- With its relation fields, a type of the schema is allowed. -/
theorem allowsType_pushFields {old : TypeDef} (hold : old ∈ schema.ownTypes) :
    result.schema.AllowsType (old.pushFields (TypeMap.addedTo added old.name)) := by
  have hloaded := hready.loaded
  have hallows := hready.allowsType (Schema.mem_declaredTypes_iff.mpr (Or.inl hold))
  refine ⟨hallows.free, fun hkind => List.append_ne_nil_of_left_ne_nil
    (hallows.nonempty hkind) _, fun hkind field hfield => ?_, fun hkind field hfield => ?_⟩
  · rcases List.mem_append.mp hfield with hdeclared | hrelation
    · exact h.allowsField hready hsealable (hallows.fields hkind field hdeclared)
    · exact h.allowsField_relation hready hsealable hrelation
  · rcases List.mem_append.mp hfield with hdeclared | hrelation
    · have hinput := hallows.inputs hkind field hdeclared
      exact ⟨hinput.free, h.takes hready hsealable hinput.takes⟩
    · have hobject := h.mem_userObjects_of_mem_addedTo hloaded.keyed hloaded.notMem_keys
        (List.mem_filter.mp hold).1 hrelation
      cases (kind_of_mem_userObjects hobject).symm.trans hkind

/-- **An input type is allowed.** -/
theorem allowsType_input {object : TypeDef} (hobject : object ∈ schema.userObjects) :
    result.schema.AllowsType (inputType (schema.userObjects.map (·.name))
      (object.pushFields (TypeMap.addedTo added object.name))) := by
  obtain ⟨hname, hstem⟩ := hready.isStem hsealable hobject
  have hallows := hready.allowsType (mem_declaredTypes_of_mem_userObjects hobject)
  have hfields := hallows.nonempty (by rw [kind_of_mem_userObjects hobject]; simp)
  refine ⟨?_, fun _ => ?_, (fun hkind => nomatch hkind), fun _ => ?_⟩
  · rw [nameInSdl_inputType hname]
    exact hstem _
  · exact mt List.map_eq_nil_iff.mp (List.append_ne_nil_of_left_ne_nil hfields _)
  · exact List.forall_mem_map.mpr fun field hfield =>
      h.allowsInput_inputField hready hsealable hobject hfield

/-- The root of queries is allowed. -/
theorem allowsType_query : result.schema.AllowsType result.schema.query := by
  have hloaded := hready.loaded
  have hroots := hready.seals.kind_roots hloaded.isWritable
  have hallows := hready.allowsType Schema.query_mem_declaredTypes
  rw [h.query_eq_pushFields hloaded.keyed hloaded.notMem_keys hready.resolved]
  refine ⟨hallows.free, fun hkind => List.append_ne_nil_of_left_ne_nil (hallows.nonempty hkind) _,
    fun hkind => List.forall_mem_append.mpr ⟨fun field hfield => ?_, fun field hfield => ?_⟩,
    fun hkind => ?_⟩
  · exact h.allowsField hready hsealable (hallows.fields hkind field hfield)
  · obtain ⟨object, hobject, hquery⟩ := List.mem_flatMap.mp hfield
    exact h.allowsField_query hready hsealable hobject hquery
  · cases hroots.1.symm.trans hkind

/-- The root of mutations is allowed if there are any. -/
theorem allowsType_mutation (hmutations : result.schema.hasMutations = true) :
    result.schema.AllowsType result.schema.mutation := by
  have hadmits := h.admitsMutations hready hsealable hmutations
  have hnonempty : result.schema.mutation.fields ≠ [] := by
    simpa [Schema.hasMutations] using hmutations
  rw [h.mutation_eq_pushFields] at hnonempty ⊢
  refine ⟨?_, fun _ => hnonempty, fun _ => List.forall_mem_append.mpr
    ⟨fun field hfield => ?_, fun field hfield => ?_⟩, fun hkind => ?_⟩
  · rw [TypeDef.pushFields, nameInSdl_of_isName hready.loaded.roots.2.name]
    exact hadmits.free
  · have hold := Schema.hasMutations_of_mem hfield
    exact h.allowsField hready hsealable ((hready.allowsType
      (Schema.mutation_mem_declaredTypes hold)).fields hadmits.kind field hfield)
  · obtain ⟨object, hobject, hmutation⟩ := List.mem_flatMap.mp hfield
    exact h.allowsField_mutation hready hsealable hobject hmutation
  · cases hadmits.kind.symm.trans hkind

/-- **What the text declares after augmentation is allowed there.** -/
theorem allowsType {type : TypeDef} (htype : type ∈ result.schema.declaredTypes) :
    result.schema.AllowsType type := by
  have hmarkers : ∀ name ∈ mutationResults, ¬IsReserved (nameInSdl name) := by
    simp only [IsReserved]
    decide
  rcases Schema.mem_declaredTypes_iff.mp htype with hown | rfl | ⟨hmutations, rfl⟩
  · rcases (h.mem_ownTypes_iff hready.loaded.keyed).mp hown with
      ⟨old, hold, rfl⟩ | ⟨name, hname, rfl⟩ | ⟨object, hobject, rfl⟩
    · exact h.allowsType_pushFields hready hsealable hold
    · refine ⟨hmarkers name hname, fun hkind => absurd rfl hkind, fun hkind => ?_, fun hkind => ?_⟩
      · cases hkind
      · cases hkind
    · exact h.allowsType_input hready hsealable hobject
  · exact h.allowsType_query hready hsealable
  · exact h.allowsType_mutation hready hsealable hmutations

end Appended

end Augment

end ClientSdk
