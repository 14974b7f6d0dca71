import ClientSdk.Proofs.Augmentation.Preservation

/-!
# Augmenting Twice

What augmentation has added is part of the schema that it gives, and a second run goes over it
as over any other schema. It finds the object types of the first run, with relation fields that
lead to no more of them and with references that are all resolved. It never succeeds, though,
where the first run has made anything for an object type: a relation field of the first run is
in the way, or else an input type. A schema without object types only gets the markers, and a
second run leaves it as it is.

## Main results

* `Augment.Appended.userObjects_eq`, `Augment.Appended.resolved`,
  `Augment.Appended.mem_relations_iff_mem`: what a second run finds.
* `Augment.Appended.addResultScalars_eq`: it adds no markers.
* `augment_twice`: it fails at a name that the first run has added, or changes nothing.
-/

namespace ClientSdk

namespace Augment

variable {schema : Schema}

/-! ### Markers -/

/-- Declaring a type that is there changes nothing. -/
theorem declare_eq_self {type : TypeDef} (h : schema.get? type.name = some type) :
    schema.declare type = schema := by
  have hentry := TypeMap.get?_eq_some_iff.mp h
  have hkey : type.name ∈ schema.types.keys := List.mem_map.mpr ⟨_, hentry, rfl⟩
  have hsame : schema.types.insert type.name type = schema.types := by
    rw [TypeMap.insert, dif_pos hkey]
    refine TypeMap.eq_of_entries_eq ((List.map_congr_left fun entry hmem => ?_).trans
      (List.map_id _))
    obtain ⟨key, found⟩ := entry
    by_cases hname : key = type.name
    · subst hname
      obtain rfl := Option.some.inj (h.symm.trans (TypeMap.get?_eq_some_iff.mpr hmem))
      exact if_pos rfl
    · exact if_neg hname
  rw [Schema.declare, hsame]

/-- Where the markers are there, none is added. -/
theorem addResultScalars_eq_self
    (h : ∀ name ∈ mutationResults, schema.get? name = some (.givenScalar name)) :
    addResultScalars schema = schema := by
  rw [addResultScalars]
  generalize mutationResults = names at h
  induction names with
  | nil => rfl
  | cons name names ih =>
      obtain ⟨hname, hnames⟩ := List.forall_mem_cons.mp h
      rw [List.foldl_cons, declare_eq_self hname]
      exact ih hnames

namespace Appended

variable {result : Augmentation} {added : List (String × FieldDef)} {types : List TypeDef}

/-- A second run adds no markers. -/
theorem addResultScalars_eq (h : Appended schema result added types) :
    addResultScalars result.schema = result.schema :=
  addResultScalars_eq_self fun _ hname => h.get?_marker hname

/-! ### Object types of a second run -/

/-- A second run is for the object types of the first, with their relation fields. -/
theorem userObjects_eq (h : Appended schema result added types) (hkeyed : schema.Keyed) :
    result.schema.userObjects = types := by
  have hmarkers : (mutationResults.map TypeDef.givenScalar).filter (·.isUserObject) = [] := by
    decide
  have hinputs : (schema.userObjects.map fun object =>
      inputType (schema.userObjects.map (·.name))
        (object.pushFields (TypeMap.addedTo added object.name))).filter (·.isUserObject) = [] := by
    rw [List.filter_eq_nil_iff]
    intro type htype
    obtain ⟨object, -, rfl⟩ := List.mem_map.mp htype
    exact Bool.false_ne_true
  rw [Schema.userObjects, h.values_eq hkeyed, List.filter_append, List.filter_append, hmarkers,
    hinputs, List.append_nil, List.append_nil, List.filter_map, h.types_eq]
  rfl

/-- A relation field is a list, so an object type refers to the same types as before. -/
theorem refersTo_pushFields_iff (h : Appended schema result added types) (hkeyed : schema.Keyed)
    (hfree : ∀ name ∈ mutationResults, name ∉ schema.types.keys) {owner : TypeDef}
    {name : String} :
    (owner.pushFields (TypeMap.addedTo added owner.name)).RefersTo name ↔
      owner.RefersTo name := by
  constructor
  · rintro ⟨field, hfield, hlist, hname⟩
    rcases List.mem_append.mp hfield with hdeclared | hrelation
    · exact ⟨field, hdeclared, hlist, hname⟩
    · obtain ⟨-, other, -, rfl⟩ := h.exists_owner_of_mem_addedTo hkeyed hfree hrelation
      cases hlist
  · rintro ⟨field, hfield, href⟩
    exact ⟨field, List.mem_append_left _ hfield, href⟩

/-- **A second run finds the relations of the first**, and no others. -/
theorem mem_relations_iff_mem (h : Appended schema result added types) (hkeyed : schema.Keyed)
    (hfree : ∀ name ∈ mutationResults, name ∉ schema.types.keys)
    {relation : String × FieldDef} :
    relation ∈ Augment.relations result.schema result.schema.userObjects ↔
      relation ∈ Augment.relations (addResultScalars schema) schema.userObjects := by
  rw [mem_relations_userObjects_iff (h.keyed hkeyed), mem_relations_iff hkeyed hfree,
    h.userObjects_eq hkeyed, h.types_eq]
  simp only [List.mem_map, exists_exists_and_eq_and, h.refersTo_pushFields_iff hkeyed hfree]
  rfl

/-- **What the object types of a second run refer to exists**: the types that they referred to
before, and the owners of their relations. -/
theorem resolved (h : Appended schema result added types) (hkeyed : schema.Keyed)
    (hfree : ∀ name ∈ mutationResults, name ∉ schema.types.keys) (hresolved : Resolved schema) :
    Resolved result.schema := by
  intro type htype field hfield
  rw [h.userObjects_eq hkeyed, h.types_eq] at htype
  obtain ⟨object, hobject, rfl⟩ := List.mem_map.mp htype
  rcases List.mem_append.mp hfield with hdeclared | hrelation
  · obtain ⟨hleaf, harguments⟩ := hresolved object hobject field hdeclared
    exact ⟨h.mem_keys hleaf, fun arg harg => h.mem_keys (harguments arg harg)⟩
  · obtain ⟨-, owner, howner, rfl⟩ := h.exists_owner_of_mem_addedTo hkeyed hfree hrelation
    exact ⟨h.mem_keys (name_mem_keys hkeyed howner), fun _ harg => absurd harg List.not_mem_nil⟩

/-! ### Where a second run fails -/

/-- If a second run cannot add its relations, then a relation field of the first run is in the
way. -/
theorem exists_relationField_of_addRelations_eq_error (h : Appended schema result added types)
    (hkeyed : schema.Keyed) (hfree : ∀ name ∈ mutationResults, name ∉ schema.types.keys)
    {error : GenerationError}
    (hfail : addRelations result.schema
      (Augment.relations result.schema result.schema.userObjects) = .error error) :
    ∃ type name, error = .namingCollision (.relationField type) name ∧
      Addition.relationField type name ∈ result.changes := by
  have hkeyed' := h.keyed hkeyed
  have htargets : ∀ relation ∈ Augment.relations result.schema result.schema.userObjects,
      relation.1 ∈ result.schema.types.keys := by
    intro relation hrelation
    obtain ⟨_, -, referenced, hreferenced, -, rfl⟩ :=
      (mem_relations_userObjects_iff hkeyed').mp hrelation
    exact name_mem_keys hkeyed' hreferenced
  obtain ⟨relation, hrelation, -, -, -, rfl⟩ := exists_of_addRelations_eq_error htargets hfail
  refine ⟨relation.1, relation.2.name, rfl, ?_⟩
  rw [h.mem_relations_iff_mem hkeyed hfree] at hrelation
  obtain ⟨entry, hentry, hsame⟩ := List.mem_map.mp (h.relations.exists_added relation hrelation)
  obtain ⟨htype, hname⟩ := Prod.mk.inj hsame
  rw [← htype, ← hname, h.changes_eq]
  simp only [List.append_assoc]
  exact List.mem_append_right _ (List.mem_append_left _
    (List.mem_map_of_mem (f := fun entry => Addition.relationField entry.1 entry.2.name) hentry))

end Appended

/-- **Input types whose names are taken cannot be added.** -/
theorem exists_addInputs_eq_error (hkeyed : schema.Keyed) {names : List String}
    (hnodup : names.Nodup) (hnames : ∀ name ∈ names, name ∈ schema.types.keys)
    (htaken : ∀ name ∈ names, inputTypeName name ∈ schema.types.keys) (hne : names ≠ []) :
    ∃ name ∈ names, addInputs schema names =
      .error (.namingCollision .inputType (inputTypeName name)) := by
  cases h : addInputs schema names with
  | ok state =>
      have hadded := InputsAdded.of_foldlM h hnames
      obtain ⟨name, hname⟩ := List.exists_mem_of_ne_nil names hne
      have hread := hname
      rw [← hadded.map_name_types hkeyed] at hread
      obtain ⟨type, htype, rfl⟩ := List.mem_map.mp hread
      exact absurd (htaken _ hname) (hadded.notMem_keys type htype)
  | error error =>
      obtain ⟨name, hname, -, rfl⟩ := exists_of_addInputs_eq_error hkeyed hnodup hnames h
      exact ⟨name, hname, rfl⟩

namespace Appended

variable {result : Augmentation} {added : List (String × FieldDef)} {types : List TypeDef}

/-- If a second run adds its relations, then an input type of the first run is in the way. -/
theorem exists_inputType_of_addRelations_eq_ok (h : Appended schema result added types)
    (hkeyed : schema.Keyed) (hne : schema.userObjects ≠ []) {related : Schema}
    {log : List (String × String)}
    (hrelated : addRelations result.schema
      (Augment.relations result.schema result.schema.userObjects) = .ok (related, log)) :
    ∃ name, addInputs related (result.schema.userObjects.map (·.name)) =
        .error (.namingCollision .inputType name) ∧
      Addition.inputType name ∈ result.changes := by
  obtain ⟨more, -, rfl, -⟩ := exists_relationsAdded hrelated
  have hnames : result.schema.userObjects.map (·.name) = schema.userObjects.map (·.name) := by
    rw [h.userObjects_eq hkeyed]
    exact h.map_name_types fun name => name
  have hkeys : ({ result.schema with
      types := result.schema.types.withFields more } : Schema).types.keys =
        result.schema.types.keys := TypeMap.keys_withFields _ _
  have hpresent : ∀ name ∈ schema.userObjects.map (·.name), name ∈ result.schema.types.keys := by
    intro name hname
    obtain ⟨object, hobject, rfl⟩ := List.mem_map.mp hname
    exact h.mem_keys (name_mem_keys hkeyed hobject)
  have htaken : ∀ name ∈ schema.userObjects.map (·.name),
      inputTypeName name ∈ result.schema.types.keys := by
    intro name hname
    obtain ⟨object, hobject, rfl⟩ := List.mem_map.mp hname
    rw [h.keys_eq]
    exact List.mem_append_right _ (List.mem_map_of_mem
      (f := fun type : TypeDef => inputTypeName type.name) hobject)
  obtain ⟨name, hname, hfail⟩ := exists_addInputs_eq_error
    (keyed_withFields (h.keyed hkeyed) more) (nodup_name_userObjects hkeyed)
    (hkeys ▸ hpresent) (hkeys ▸ htaken) (List.map_eq_nil_iff.not.mpr hne)
  rw [hnames]
  refine ⟨inputTypeName name, hfail, ?_⟩
  obtain ⟨object, hobject, rfl⟩ := List.mem_map.mp hname
  have hinputs := h.map_name_types fun name => Addition.inputType (inputTypeName name)
  rw [h.changes_eq, hinputs]
  simp only [List.append_assoc]
  refine List.mem_append_right _ (List.mem_append_right _ (List.mem_append_left _ ?_))
  exact List.mem_map_of_mem
    (f := fun type : TypeDef => Addition.inputType (inputTypeName type.name)) hobject

end Appended

/-- A schema is not augmented if its relations cannot be added. -/
theorem augment_eq_error_of_addRelations (hresolved : Resolved schema) {error : GenerationError}
    (h : addRelations (addResultScalars schema)
      (relations (addResultScalars schema) schema.userObjects) = .error error) :
    augment schema = .error error := by
  rw [augment, bind_eq_error_iff]
  refine Or.inr ⟨(), requireReferences_eq_ok_iff.mpr hresolved, ?_⟩
  exact bind_eq_error_iff.mpr (Or.inl h)

/-- A schema is not augmented if its relations can be added, but its input types cannot. -/
theorem augment_eq_error_of_addInputs (hresolved : Resolved schema) {error : GenerationError}
    {state : Schema × List (String × String)}
    (hrelated : addRelations (addResultScalars schema)
      (relations (addResultScalars schema) schema.userObjects) = .ok state)
    (h : addInputs state.1 (schema.userObjects.map (·.name)) = .error error) :
    augment schema = .error error := by
  rw [augment, bind_eq_error_iff]
  refine Or.inr ⟨(), requireReferences_eq_ok_iff.mpr hresolved, ?_⟩
  refine bind_eq_error_iff.mpr (Or.inr ⟨state, hrelated, ?_⟩)
  exact bind_eq_error_iff.mpr (Or.inl h)

/-- A schema without object types gets the markers and nothing else. -/
theorem augment_of_userObjects_eq_nil (h : schema.userObjects = []) :
    augment schema = .ok { schema := addResultScalars schema,
                           changes := mutationResults.map .markerType } := by
  rw [augment, h]
  rfl

end Augment

open Augment in
/-- **Augmentation is never applied twice in silence.** Where a schema with object types has been
augmented, augmenting it again fails at the name of a relation field or of an input type that the
first run has added. Where a schema without object types has been augmented, augmenting it again
gives the same schema. -/
theorem augment_twice {schema : Schema} {result : Augmentation} (hkeyed : schema.Keyed)
    (hfree : ∀ name ∈ mutationResults, name ∉ schema.types.keys)
    (h : augment schema = .ok result) :
    (schema.userObjects ≠ [] → ∃ clash name,
      augment result.schema = .error (.namingCollision clash name) ∧
        ((∃ type, clash = .relationField type ∧
            Addition.relationField type name ∈ result.changes) ∨
          clash = .inputType ∧ Addition.inputType name ∈ result.changes)) ∧
    (schema.userObjects = [] → augment result.schema = .ok result) := by
  obtain ⟨hresolved, -⟩ := resolved_and_collisionFree hkeyed hfree h
  obtain ⟨added, types, happended⟩ := exists_appended hkeyed hfree h
  have hmarked := happended.addResultScalars_eq
  constructor
  · intro hne
    have hagain := happended.resolved hkeyed hfree hresolved
    -- The second run goes on without new markers.
    cases hrelations : addRelations result.schema
        (relations result.schema result.schema.userObjects) with
    | error error =>
        obtain ⟨type, name, rfl, hchange⟩ :=
          happended.exists_relationField_of_addRelations_eq_error hkeyed hfree hrelations
        refine ⟨_, name, augment_eq_error_of_addRelations hagain ?_, Or.inl ⟨type, rfl, hchange⟩⟩
        rw [hmarked, hrelations]
    | ok state =>
        obtain ⟨name, hfail, hchange⟩ :=
          happended.exists_inputType_of_addRelations_eq_ok hkeyed hne hrelations
        refine ⟨_, name, augment_eq_error_of_addInputs hagain ?_ hfail, Or.inr ⟨rfl, hchange⟩⟩
        rw [hmarked, hrelations]
  · intro hnil
    have hagain : result.schema.userObjects = [] := by
      rw [happended.userObjects_eq hkeyed, happended.types_eq, hnil, List.map_nil]
    rw [augment_of_userObjects_eq_nil hnil] at h
    rw [augment_of_userObjects_eq_nil hagain, hmarked, ← Except.ok.inj h]

/-- A schema with a scalar and an input type of the user, but without object types. -/
def pollSchema : Schema where
  types := .ofList (standardScalars.map .givenScalar ++
    [{ name := "Instant", kind := .scalar },
     { name := "Vote", kind := .input
       fields := [{ name := "cast", type := .named "Instant" false }] }])
  query := { name := "Query", fields := [{ name := "votes", type := .named "Int" false }] }
  mutation := { name := "Mutation" }

/-- The relation field that studios have got from the first run is in the way of the second, and
the schema without object types is augmented to the same schema again. -/
theorem augment_twice_movie :
    (∃ result, movieSchema.userObjects ≠ [] ∧ augment movieSchema = .ok result ∧
      augment result.schema =
        .error (.namingCollision (.relationField "Studio") "movies_as_studio") ∧
      Addition.relationField "Studio" "movies_as_studio" ∈ result.changes) ∧
    ∃ result, pollSchema.userObjects = [] ∧ augment pollSchema = .ok result ∧
      result.schema ≠ pollSchema ∧ augment result.schema = .ok result := by
  constructor
  · have hobjects : movieSchema.userObjects ≠ [] := by decide
    obtain ⟨result, h, hagain⟩ : ∃ result, augment movieSchema = .ok result ∧
        augment result.schema =
          .error (.namingCollision (.relationField "Studio") "movies_as_studio") := ⟨_, rfl, rfl⟩
    obtain ⟨clash, name, hfail, hadded⟩ :=
      (augment_twice (by decide) (by decide) h).1 hobjects
    obtain ⟨rfl, rfl⟩ := GenerationError.namingCollision.inj
      (Except.error.inj (hagain.symm.trans hfail))
    rcases hadded with ⟨type, hclash, hadded⟩ | ⟨hclash, -⟩
    · obtain rfl := Clash.relationField.inj hclash
      exact ⟨result, hobjects, h, hfail, hadded⟩
    · cases hclash
  · have hobjects : pollSchema.userObjects = [] := by decide
    obtain ⟨result, h, hnew⟩ : ∃ result, augment pollSchema = .ok result ∧
        result.schema ≠ pollSchema := ⟨_, rfl, by decide⟩
    exact ⟨result, hobjects, h, hnew, (augment_twice (by decide) (by decide) h).2 hobjects⟩

end ClientSdk
