import ClientSdk.Proofs.Schema.Loading

/-!
# Names after Augmentation

Everything that augmentation adds to a schema that has been read from a text goes by names, but
for the markers: fields are called after object types in lowercase and in the plural, and input
types after object types with a suffix.

## Main results

* `Schema.Loaded.notMem_keys`: no type of such a schema has the name of a marker.
* `Augment.Appended.goesBy`: the names after augmentation.
-/

namespace ClientSdk

open Token

namespace Schema.Loaded

variable {schema : Schema}

/-- The types go by names. -/
theorem goesBy (h : schema.Loaded) {type : TypeDef} (htype : type ∈ schema.declarations) :
    type.GoesBy (isName · = true) := by
  rcases List.mem_cons.mp htype with rfl | htype
  · exact h.roots.1
  rcases List.mem_cons.mp htype with rfl | htype
  · exact h.roots.2
  rcases h.values type htype with ⟨hname, heq⟩ | ⟨hdeclared, -⟩
  · have hstandard : ∀ name ∈ standardScalars, isName name = true := by decide
    refine ⟨hstandard _ hname, ?_⟩
    rw [heq]
    exact fun _ hmem => absurd hmem List.not_mem_nil
  · exact hdeclared.goesBy

/-- The keys are names. -/
theorem isName_of_mem_keys (h : schema.Loaded) {name : String} (hname : name ∈ schema.types.keys) :
    isName name = true := by
  obtain ⟨entry, hentry, rfl⟩ := List.mem_map.mp hname
  rw [h.keyed entry hentry]
  exact (h.goesBy (List.mem_append_right [schema.query, schema.mutation]
    (List.mem_map_of_mem hentry))).name

/-- **No type has the name of a marker.** -/
theorem notMem_keys (h : schema.Loaded) : ∀ name ∈ mutationResults, name ∉ schema.types.keys :=
  fun _ hmarker hname => Bool.false_ne_true
    ((isName_of_mem_mutationResults hmarker).symm.trans (h.isName_of_mem_keys hname))

/-- The types for which declarations are synthesized are declared by the document. -/
theorem isDeclared (h : schema.Loaded) {object : TypeDef} (hobject : object ∈ schema.userObjects) :
    object.IsDeclared ∧ object.name ≠ schema.query.name ∧ object.name ≠ schema.mutation.name := by
  obtain ⟨hvalue, huser⟩ := Augment.mem_userObjects_iff.mp hobject
  rcases h.values object hvalue with ⟨-, heq⟩ | hdeclared
  · rw [heq] at huser
    cases huser
  · exact hdeclared

end Schema.Loaded

namespace Augment

variable {schema : Schema}

/-! ### Names that are made -/

/-- A suffix that begins with an underscore continues names. -/
theorem isName_inputTypeName {name : String} (h : isName name = true) :
    isName (inputTypeName name) = true :=
  isName_append h (by decide)

/-- The names of relation fields. -/
theorem isName_relationName {owner referenced : String} (howner : isName owner = true)
    (hreferenced : isName referenced = true) : isName (relationName owner referenced) = true := by
  have hplural := Text.isName_plural (Text.isName_lower howner)
  exact isName_append (isName_append hplural (by decide))
    (all_isNameContinue (Text.isName_lower hreferenced))

/-- The mutations of an object type go by names and return markers. -/
theorem goesBy_of_mem_mutationFields {type : TypeDef} (h : isName type.name = true)
    {field : FieldDef} (hfield : field ∈ mutationFields type) : field.GoesBy IsTypeName := by
  have hstem := Text.isName_lower h
  have hdata : isName "data" = true ∧ IsTypeName (inputTypeName type.name) :=
    ⟨by decide, Or.inl (isName_inputTypeName h)⟩
  have hid : isName "id" = true ∧ IsTypeName "String" := by
    rw [IsTypeName]
    decide
  have hmarkers : IsTypeName insertResult ∧ IsTypeName deleteResult ∧
      IsTypeName updateResult := by
    simp only [IsTypeName]
    decide
  simp only [mutationFields, List.mem_cons, List.not_mem_nil, or_false] at hfield
  rcases hfield with rfl | rfl | rfl
  · exact ⟨isName_append hstem (by decide), hmarkers.1, List.forall_mem_singleton.mpr hdata⟩
  · exact ⟨isName_append hstem (by decide), hmarkers.2.1, List.forall_mem_singleton.mpr hid⟩
  · refine ⟨isName_append hstem (by decide), hmarkers.2.2, ?_⟩
    exact List.forall_mem_cons.mpr ⟨hid, List.forall_mem_singleton.mpr hdata⟩

/-- The filter of a field that goes by names goes by names. -/
theorem isName_filterArgument {field : FieldDef} (h : field.GoesBy IsTypeName) :
    isName (filterArgument schema field).name = true ∧
      IsTypeName (filterArgument schema field).type.leafName := by
  refine ⟨h.name, ?_⟩
  rw [filterArgument]
  dsimp only
  rw [TypeRef.leafName_withNullable]
  split
  · exact h.type
  · rw [TypeRef.leafName_withLeafName]
    exact Or.inl (by decide)

/-- The queries of an object type that goes by names go by names. -/
theorem goesBy_of_mem_queryFields {type : TypeDef} (h : isName type.name = true)
    (hfields : ∀ field ∈ type.fields, field.GoesBy IsTypeName) {field : FieldDef}
    (hfield : field ∈ queryFields schema type) : field.GoesBy IsTypeName := by
  have hstem := Text.isName_lower h
  have hfilters : ∀ arg ∈ type.fields.map (filterArgument schema),
      isName arg.name = true ∧ IsTypeName arg.type.leafName := by
    intro arg harg
    obtain ⟨field, hmem, rfl⟩ := List.mem_map.mp harg
    exact isName_filterArgument (hfields field hmem)
  simp only [queryFields, List.mem_cons, List.not_mem_nil, or_false] at hfield
  rcases hfield with rfl | rfl
  · exact ⟨hstem, Or.inl h, hfilters⟩
  · exact ⟨Text.isName_plural hstem, Or.inl h, hfilters⟩

/-- A field of an input type goes by names when the field that it is made from does. -/
theorem goesBy_inputField {objects : List String} (hobjects : ∀ name ∈ objects, isName name = true)
    {field : FieldDef} (h : field.GoesBy IsTypeName) :
    (inputField objects field).GoesBy IsTypeName := by
  rw [inputField]
  split
  · rename_i hobject
    refine ⟨h.name, ?_, h.arguments⟩
    rw [TypeRef.leafName_withLeafName]
    exact Or.inl (isName_inputTypeName (hobjects _ hobject))
  · exact h

namespace Appended

variable {result : Augmentation} {added : List (String × FieldDef)} {types : List TypeDef}
  (h : Appended schema result added types) (hloaded : schema.Loaded)

include h hloaded

/-- With its relation fields, a type of the schema goes by names. -/
theorem goesBy_pushFields {old : TypeDef} (hold : old ∈ schema.types.values) :
    (old.pushFields (TypeMap.addedTo added old.name)).GoesBy IsTypeName := by
  have hnamed := hloaded.goesBy (List.mem_append_right [schema.query, schema.mutation] hold)
  refine ⟨Or.inl hnamed.name, fun field hfield => ?_⟩
  rcases List.mem_append.mp hfield with hown | hrelation
  · exact (hnamed.fields field hown).mono fun _ hname => Or.inl hname
  · obtain ⟨-, owner, howner, rfl⟩ := h.exists_owner_of_mem_addedTo hloaded.keyed
      hloaded.notMem_keys hrelation
    have hname := (hloaded.isDeclared howner).1.goesBy.name
    exact ⟨isName_relationName hname hnamed.name, Or.inl hname,
      fun _ harg => absurd harg List.not_mem_nil⟩

/-- **The names after augmentation** are names, or those of markers. -/
theorem goesBy {type : TypeDef} (htype : type ∈ result.schema.declarations) :
    type.GoesBy IsTypeName := by
  have hobject : ∀ object ∈ schema.userObjects,
      (object.pushFields (TypeMap.addedTo added object.name)).GoesBy IsTypeName :=
    fun object hobject => h.goesBy_pushFields hloaded (mem_userObjects_iff.mp hobject).1
  have hname : ∀ object ∈ schema.userObjects, isName object.name = true := fun object hobject =>
    (hloaded.isDeclared hobject).1.goesBy.name
  have hroot : ∀ {root : TypeDef} {fields : List FieldDef}, root.GoesBy (isName · = true) →
      (∀ field ∈ fields, field.GoesBy IsTypeName) →
      (root.pushFields fields).GoesBy IsTypeName := by
    intro root fields hnamed hfields
    refine ⟨Or.inl hnamed.name, List.forall_mem_append.mpr ⟨fun field hfield => ?_, hfields⟩⟩
    exact (hnamed.fields field hfield).mono fun _ hname => Or.inl hname
  rcases List.mem_cons.mp htype with rfl | htype
  · rw [h.query_eq]
    refine hroot hloaded.roots.1 fun field hfield => ?_
    obtain ⟨type, htype, hfield⟩ := List.mem_flatMap.mp hfield
    rw [h.types_eq] at htype
    obtain ⟨object, hmem, rfl⟩ := List.mem_map.mp htype
    have hnamed : isName (object.pushFields (TypeMap.addedTo added object.name)).name = true :=
      hname object hmem
    exact goesBy_of_mem_queryFields hnamed (hobject object hmem).fields hfield
  rcases List.mem_cons.mp htype with rfl | htype
  · rw [h.mutation_eq]
    refine hroot hloaded.roots.2 fun field hfield => ?_
    obtain ⟨type, htype, hfield⟩ := List.mem_flatMap.mp hfield
    rw [h.types_eq] at htype
    obtain ⟨object, hmem, rfl⟩ := List.mem_map.mp htype
    exact goesBy_of_mem_mutationFields (hname object hmem) hfield
  obtain ⟨old, hold, rfl⟩ | ⟨name, hmarker, rfl⟩ | ⟨object, hmem, rfl⟩ :=
    h.mem_values hloaded.keyed htype
  · exact h.goesBy_pushFields hloaded hold
  · exact ⟨Or.inr hmarker, fun _ hfield => absurd hfield List.not_mem_nil⟩
  · refine ⟨Or.inl (isName_inputTypeName (hname object hmem)), fun field hfield => ?_⟩
    obtain ⟨original, horiginal, rfl⟩ := List.mem_map.mp hfield
    refine goesBy_inputField ?_ ((hobject object hmem).fields original horiginal)
    intro name hobjects
    obtain ⟨object, hmem, rfl⟩ := List.mem_map.mp hobjects
    exact hname object hmem

end Appended

end Augment

end ClientSdk
