import ClientSdk.Proofs.Augmentation.Outcome

/-!
# Passes over Any Schema

In a schema that is put together by hand, a type can stand under another name than its own, and a
name can be that of a marker. The passes of augmentation go over such a schema too: a marker takes
the place of a type, and the declarations of an object type are made of the type that is found
under its name. This module says what the passes do without any condition on the schema.

## Main definitions

* `Schema.nameUnder`: the name of the type that stands under a key.
* `Augment.sourceName`: the name that the declarations of an object type are made of.
* `Augment.InputsRead`: what a pass over object types has read and added.
* `Augment.Passed`: the passes over the types have succeeded.
* `Augment.PassFails`: the pass that fails.

## Main results

* `Augment.get?_addResultScalars_eq`: the types once the markers are there.
* `Augment.InputsRead.of_foldlM`, `Augment.exists_passed`: what the passes have done.
* `Augment.passFails_of_augment_eq_error`: augmentation fails in one of its passes.
-/

namespace ClientSdk

/-! ### Type maps -/

/-- What is inserted is found under its key, and everything else as before. -/
theorem TypeMap.get?_insert (types : TypeMap) (key : String) (type : TypeDef) (name : String) :
    (types.insert key type).get? name = if name = key then some type else types.get? name := by
  by_cases hkey : key ∈ types.keys
  · have hentries : (types.insert key type).entries =
        types.entries.map fun entry => (entry.1, if entry.1 = key then type else entry.2) := by
      rw [insert, dif_pos hkey]
      refine List.map_congr_left fun entry _ => ?_
      split
      · rfl
      · rfl
    rw [get?, hentries, lookup_map_value (fun name old => if name = key then type else old)]
    by_cases hname : name = key
    · obtain ⟨old, hold⟩ := Option.isSome_iff_exists.mp (contains_iff.mpr hkey)
      rw [if_pos hname, hname, ← get?, hold, Option.map_some, if_pos rfl]
    · simp only [if_neg hname, Option.map_id']
      rfl
  · rw [get?, entries_insert_of_notMem hkey, List.lookup_append, ← get?]
    by_cases hname : name = key
    · have hnone : types.get? key = none := by
        rw [← Option.not_isSome_iff_eq_none]
        exact fun hsome => hkey (contains_iff.mp hsome)
      rw [if_pos hname, hname, hnone, Option.none_or, List.lookup_cons_self]
    · rw [if_neg hname, List.lookup_cons, beq_eq_false_iff_ne.mpr hname, List.lookup_nil,
        Option.or_none]

namespace Schema

variable {schema : Schema} {key : String}

/-- The name of the type under `key`, or `key` where there is none. -/
def nameUnder (schema : Schema) (key : String) : String :=
  ((schema.get? key).map (·.name)).getD key

theorem nameUnder_of_get? {type : TypeDef} (h : schema.get? key = some type) :
    schema.nameUnder key = type.name := by
  rw [nameUnder, h]
  rfl

theorem nameUnder_of_notMem (h : key ∉ schema.types.keys) : schema.nameUnder key = key := by
  have hnone : schema.get? key = none := by
    rw [← Option.not_isSome_iff_eq_none]
    exact fun hsome => h (TypeMap.contains_iff.mp hsome)
  rw [nameUnder, hnone]
  rfl

end Schema

namespace Augment

variable {schema : Schema}

/-! ### Result markers -/

/-- The markers stand under their names, and every other type stands where it was. -/
theorem get?_addResultScalars_eq (schema : Schema) (name : String) :
    (addResultScalars schema).get? name =
      if name ∈ mutationResults then some (.givenScalar name) else schema.get? name := by
  rw [addResultScalars]
  generalize mutationResults = names
  induction names generalizing schema with
  | nil => rfl
  | cons first names ih =>
      have hdeclare : (schema.declare (.givenScalar first)).get? name =
          if name = first then some (.givenScalar first) else schema.get? name :=
        TypeMap.get?_insert ..
      rw [List.foldl_cons, ih, hdeclare]
      by_cases hfirst : name = first
      · subst hfirst
        rw [if_pos rfl, if_pos List.mem_cons_self]
        exact ite_self _
      · simp only [List.mem_cons, hfirst, false_or, if_false]

/-- A name that is no marker stands for what it stood for. -/
theorem get?_addResultScalars_of_notMem {name : String} (h : name ∉ mutationResults) :
    (addResultScalars schema).get? name = schema.get? name := by
  rw [get?_addResultScalars_eq, if_neg h]

/-- The keys are those of the types and of the markers. -/
theorem mem_keys_addResultScalars_iff {name : String} :
    name ∈ (addResultScalars schema).types.keys ↔
      name ∈ schema.types.keys ∨ name ∈ mutationResults := by
  rw [← TypeMap.contains_iff, ← TypeMap.contains_iff, TypeMap.contains, TypeMap.contains,
    ← Schema.get?, get?_addResultScalars_eq, ← Schema.get?]
  by_cases hmarker : name ∈ mutationResults
  · simp [hmarker]
  · simp [hmarker]

/-- What is no marker has been there before. -/
theorem mem_values_of_mem_values_addResultScalars {type : TypeDef}
    (h : type ∈ (addResultScalars schema).types.values) :
    type ∈ schema.types.values ∨ ∃ name ∈ mutationResults, type = .givenScalar name := by
  obtain ⟨⟨name, type⟩, hentry, rfl⟩ := List.mem_map.mp h
  have hget := TypeMap.get?_eq_some_iff.mpr hentry
  rw [← Schema.get?, get?_addResultScalars_eq] at hget
  split at hget
  · rename_i hmarker
    exact .inr ⟨name, hmarker, (Option.some.inj hget).symm⟩
  · exact .inl (Schema.mem_values_of_get? hget)

/-! ### Relation fields -/

/-- The schema with markers and relation fields. -/
def related (schema : Schema) (added : List (String × FieldDef)) : Schema :=
  { addResultScalars schema with types := (addResultScalars schema).types.withFields added }

/-- A relation leads from a user-declared object type back to the types that refer to it. -/
theorem exists_of_mem_relations {owners : List TypeDef} {relation : String × FieldDef}
    (h : relation ∈ relations (addResultScalars schema) owners) :
    ∃ owner ∈ owners, ∃ referenced ∈ schema.userObjects,
      relation = (referenced.name, relationField owner.name referenced.name) := by
  obtain ⟨owner, howner, hrelation⟩ := List.mem_flatMap.mp h
  obtain ⟨field, -, hfield⟩ := List.mem_filterMap.mp hrelation
  obtain ⟨-, referenced, hget, huser, rfl⟩ := relationOf?_eq_some_iff.mp hfield
  refine ⟨owner, howner, referenced, mem_userObjects_iff.mpr ⟨?_, huser⟩, rfl⟩
  rcases mem_values_of_mem_values_addResultScalars (Schema.mem_values_of_get? hget) with
    hold | ⟨name, -, rfl⟩
  · exact hold
  · cases huser

/-- Relation fields change no name. -/
theorem nameUnder_related (added : List (String × FieldDef)) (key : String) :
    (related schema added).nameUnder key = (addResultScalars schema).nameUnder key := by
  rw [Schema.nameUnder, Schema.nameUnder, related, Schema.get?, TypeMap.get?_withFields,
    Option.map_map]
  rfl

/-- Relation fields change no key. -/
theorem keys_related (added : List (String × FieldDef)) :
    (related schema added).types.keys = (addResultScalars schema).types.keys :=
  TypeMap.keys_withFields _ _

/-! ### Input types -/

/-- The name that the declarations of an object type are made of: that of the type which is found
under its name once the markers are there. -/
def sourceName (schema : Schema) (type : TypeDef) : String :=
  (addResultScalars schema).nameUnder type.name

/-- The declarations of an object type that stands under its name are made of its name. -/
theorem sourceName_of_get? {type found : TypeDef} (h : schema.get? type.name = some found)
    (hname : found.name = type.name) : sourceName schema type = type.name := by
  rw [sourceName, Schema.nameUnder, get?_addResultScalars_eq]
  split
  · rfl
  · rw [h, Option.map_some, hname]
    rfl

/-- What a pass over the names `done` of object types has read and added: the types under these
names, which can be input types of the pass itself, and the input types of these. -/
structure InputsRead (schema : Schema) (objects done : List String) (extended : Schema)
    (types : List TypeDef) : Prop where
  /-- The types are those under the names. -/
  names_eq : types.map (·.name) = done.map schema.nameUnder
  /-- They are still there. -/
  exists_get? : ∀ type ∈ types, ∃ name ∈ done, extended.get? name = some type
  /-- The input types come last. -/
  entries_eq : extended.types.entries = schema.types.entries ++ inputEntries objects types
  /-- The root of queries is the same. -/
  query_eq : extended.query = schema.query
  /-- The root of mutations is the same. -/
  mutation_eq : extended.mutation = schema.mutation

namespace InputsRead

variable {objects done : List String} {extended : Schema} {types : List TypeDef}

/-- The names of the input types are made of those of the types. -/
theorem map_fst_inputEntries (objects : List String) (types : List TypeDef) :
    (inputEntries objects types).map Prod.fst = types.map fun type => inputTypeName type.name := by
  rw [inputEntries, List.map_map]
  rfl

/-- The keys are those that were there before and those of the input types. -/
theorem keys_eq (h : InputsRead schema objects done extended types) :
    extended.types.keys =
      schema.types.keys ++ done.map fun name => inputTypeName (schema.nameUnder name) := by
  have hnames := congrArg (List.map inputTypeName) h.names_eq
  rw [List.map_map, List.map_map] at hnames
  rw [TypeMap.keys, h.entries_eq, List.map_append, map_fst_inputEntries]
  exact congrArg (_ ++ ·) hnames

/-- The type that is read next has the name that the schema has under its key. -/
theorem name_eq_of_typeNamed (h : InputsRead schema objects done extended types) {name : String}
    {reference : Reference} {type : TypeDef}
    (hread : typeNamed extended name reference = .ok type) :
    type.name = schema.nameUnder name := by
  rw [typeNamed_eq_ok_iff, Schema.get?, TypeMap.get?_eq_some_iff, h.entries_eq,
    List.mem_append] at hread
  rcases hread with hold | hinput
  · rw [Schema.nameUnder_of_get? (TypeMap.get?_eq_some_iff.mpr hold)]
  · -- An input type of the pass stands under its own name, and there was nothing before.
    obtain ⟨source, hsource, heq⟩ := List.mem_map.mp hinput
    obtain ⟨rfl, rfl⟩ := Prod.mk.inj heq
    have hnodup := extended.types.nodup_keys
    rw [h.entries_eq, List.map_append] at hnodup
    have hnew : inputTypeName source.name ∉ schema.types.keys := fun hmem =>
      List.disjoint_of_nodup_append hnodup hmem (List.mem_map_of_mem hinput)
    rw [Schema.nameUnder_of_notMem hnew]
    rfl

/-- The types that were there before are still there. -/
theorem get?_eq (h : InputsRead schema objects done extended types) {name : String}
    {type : TypeDef} (hget : schema.get? name = some type) : extended.get? name = some type := by
  rw [Schema.get?, TypeMap.get?_eq_some_iff] at hget ⊢
  rw [h.entries_eq]
  exact List.mem_append_left _ hget

/-- **Adding an input type** makes it of the type that is found under the name. -/
theorem step {name : String} {state : Schema × List TypeDef}
    (h : InputsRead schema objects done extended types)
    (hstep : addInput objects (extended, types) name = .ok state) :
    InputsRead schema objects (done ++ [name]) state.1 state.2 := by
  rw [addInput, bind_eq_ok_iff] at hstep
  obtain ⟨type, htype, hstep⟩ := hstep
  split at hstep
  · cases hstep
  · rename_i hfree
    obtain rfl := Except.ok.inj hstep
    rw [TypeMap.contains_iff] at hfree
    have hentries : (extended.declare (inputType objects type)).types.entries =
        extended.types.entries ++ inputEntries objects [type] :=
      TypeMap.entries_insert_of_notMem hfree _
    have hkept : ∀ {key found}, extended.get? key = some found →
        (extended.declare (inputType objects type)).get? key = some found := by
      intro key found hfound
      rw [Schema.get?, TypeMap.get?_eq_some_iff] at hfound ⊢
      rw [hentries]
      exact List.mem_append_left _ hfound
    refine ⟨?_, ?_, ?_, h.query_eq, h.mutation_eq⟩
    · rw [List.map_append, List.map_append, h.names_eq, List.map_singleton, List.map_singleton,
        h.name_eq_of_typeNamed htype]
    · intro found hfound
      rcases List.mem_append.mp hfound with hold | hnew
      · obtain ⟨key, hkey, hget⟩ := h.exists_get? found hold
        exact ⟨key, List.mem_append_left _ hkey, hkept hget⟩
      · obtain rfl := List.mem_singleton.mp hnew
        exact ⟨name, List.mem_append_right _ (List.mem_singleton_self name),
          hkept (typeNamed_eq_ok_iff.mp htype)⟩
    · rw [hentries, h.entries_eq, List.append_assoc, inputEntries, inputEntries, inputEntries,
        List.map_append]

/-- **A pass over object types** adds the input types of the types under their names. -/
theorem of_foldlM {names : List String} {state : Schema × List TypeDef}
    (h : names.foldlM (addInput objects) (schema, []) = .ok state) :
    InputsRead schema objects names state.1 state.2 := by
  refine foldlM_induction (motive := fun done state =>
    InputsRead schema objects done state.1 state.2) h
    ⟨rfl, fun _ hmem => absurd hmem List.not_mem_nil, (List.append_nil _).symm, rfl, rfl⟩ ?_
  rintro done name rest ⟨current, read⟩ state - hread hstep
  exact hread.step hstep

/-- A pass over object types fails at a name under which there is nothing, or at one whose input
type has the name of a type or of an input type of the pass. -/
theorem exists_of_foldlM_eq_error {names : List String} {error : GenerationError}
    (h : names.foldlM (addInput objects) (schema, []) = .error error) :
    ∃ done name rest, names = done ++ name :: rest ∧
      (name ∉ schema.types.keys ∧ error = .missingType name .inputType ∨
        error = .namingCollision .inputType (inputTypeName (schema.nameUnder name)) ∧
          (inputTypeName (schema.nameUnder name) ∈ schema.types.keys ∨
            ∃ earlier ∈ done, schema.nameUnder earlier = schema.nameUnder name)) := by
  obtain ⟨done, name, rest, ⟨current, read⟩, rfl, hdone, hfail⟩ :=
    exists_step_of_foldlM_eq_error h
  have hread := of_foldlM hdone
  refine ⟨done, name, rest, rfl, ?_⟩
  rw [addInput, bind_eq_error_iff] at hfail
  rcases hfail with hmissing | ⟨type, htype, hcollision⟩
  · obtain ⟨habsent, rfl⟩ := typeNamed_eq_error_iff.mp hmissing
    rw [hread.keys_eq] at habsent
    exact .inl ⟨fun hmem => habsent (List.mem_append_left _ hmem), rfl⟩
  · rw [hread.name_eq_of_typeNamed htype] at hcollision
    split at hcollision
    · rename_i htaken
      refine .inr ⟨(Except.error.inj hcollision).symm, ?_⟩
      rw [TypeMap.contains_iff, hread.keys_eq, List.mem_append, List.mem_map] at htaken
      rcases htaken with htaken | ⟨earlier, hearlier, hsame⟩
      · exact .inl htaken
      · exact .inr ⟨earlier, hearlier, inputTypeName_injective hsame⟩
    · cases hcollision

end InputsRead

/-! ### All passes -/

/-- The passes over the types have succeeded: references are resolved, relation fields and input
types are added. -/
structure Passed (schema : Schema) (added : List (String × FieldDef)) (extended : Schema)
    (types : List TypeDef) : Prop where
  /-- What object types refer to exists. -/
  resolved : Resolved schema
  /-- The relation fields are those of the user-declared object types. -/
  relations : RelationsAdded (addResultScalars schema)
    (relations (addResultScalars schema) schema.userObjects) added
  /-- The input types are those of the types under the names of the object types. -/
  inputs : InputsRead (related schema added) (schema.userObjects.map (·.name))
    (schema.userObjects.map (·.name)) extended types

namespace Passed

variable {added : List (String × FieldDef)} {extended : Schema} {types : List TypeDef}

/-- Declarations are made for each object type of the name that is its source. -/
theorem map_name_types (h : Passed schema added extended types) :
    types.map (·.name) = schema.userObjects.map (sourceName schema) := by
  rw [h.inputs.names_eq, List.map_map]
  exact List.map_congr_left fun type _ => nameUnder_related added type.name

/-- The fields that are added to a root have the names that the sources call for. -/
theorem map_name_flatMap (h : Passed schema added extended types)
    {declared : TypeDef → List FieldDef} {names : String → List String}
    (hnames : ∀ type, (declared type).map (·.name) = names type.name) :
    (types.flatMap declared).map (·.name) =
      schema.userObjects.flatMap fun type => names (sourceName schema type) := by
  rw [List.map_flatMap, ← List.flatMap_map (f := sourceName schema), ← h.map_name_types,
    List.flatMap_map]
  exact List.flatMap_congr fun type _ => hnames type

/-- The root of queries is the same. -/
theorem query_eq (h : Passed schema added extended types) : extended.query = schema.query :=
  h.inputs.query_eq

/-- The root of mutations is the same. -/
theorem mutation_eq (h : Passed schema added extended types) :
    extended.mutation = schema.mutation :=
  h.inputs.mutation_eq

end Passed

/-- **What augmentation has done** when it succeeds. -/
theorem exists_passed {result : Augmentation} (h : augment schema = .ok result) :
    ∃ added extended types, Passed schema added extended types ∧
      ((types.flatMap mutationFields).map (·.name)).Nodup ∧
      ((types.flatMap (queryFields extended)).map (·.name)).Nodup ∧
      result.schema = { extended with
        query := schema.query.pushFields (types.flatMap (queryFields extended))
        mutation := schema.mutation.pushFields (types.flatMap mutationFields) } := by
  obtain ⟨hrefs, related, log, extended, types, mutation, query, hrelated, hinputs, hmutation,
    hquery, rfl⟩ := augment_eq_ok_iff.mp h
  obtain ⟨added, hadded, rfl, -⟩ := exists_relationsAdded hrelated
  have hpassed : Passed schema added extended types :=
    ⟨requireReferences_eq_ok_iff.mp hrefs, hadded, .of_foldlM hinputs⟩
  obtain ⟨hmutations, -, rfl⟩ := addRootFields_eq_ok_iff.mp hmutation
  obtain ⟨hqueries, -, rfl⟩ := addRootFields_eq_ok_iff.mp hquery
  exact ⟨added, extended, types, hpassed, hmutations, hqueries,
    by rw [hpassed.query_eq, hpassed.mutation_eq]⟩

/-- The pass that fails, after those before it have succeeded. -/
inductive PassFails (schema : Schema) (error : GenerationError) : Prop where
  /-- An object type refers to a type that does not exist. -/
  | references (h : requireReferences schema schema.userObjects = .error error)
  /-- A relation field cannot be added. -/
  | relations (hresolved : Resolved schema)
      (h : addRelations (addResultScalars schema)
        (relations (addResultScalars schema) schema.userObjects) = .error error)
  /-- An input type cannot be added. -/
  | inputs {added : List (String × FieldDef)} (hresolved : Resolved schema)
      (h : addInputs (related schema added) (schema.userObjects.map (·.name)) = .error error)
  /-- A mutation cannot be added. -/
  | mutations {added : List (String × FieldDef)} {extended : Schema} {types : List TypeDef}
      (hpassed : Passed schema added extended types)
      (h : addRootFields schema.mutation (types.flatMap mutationFields) = .error error)
  /-- A query cannot be added. -/
  | queries {added : List (String × FieldDef)} {extended : Schema} {types : List TypeDef}
      (hpassed : Passed schema added extended types)
      (h : addRootFields schema.query (types.flatMap (queryFields extended)) = .error error)

/-- **Augmentation fails in one of its passes**, whatever the schema is. -/
theorem passFails_of_augment_eq_error {error : GenerationError}
    (h : augment schema = .error error) : PassFails schema error := by
  rw [augment] at h
  rcases bind_eq_error_iff.mp h with h | ⟨⟨⟩, hrefs, h⟩
  · exact .references h
  have hresolved := requireReferences_eq_ok_iff.mp hrefs
  rcases bind_eq_error_iff.mp h with h | ⟨⟨_, log⟩, hrelated, h⟩
  · exact .relations hresolved h
  obtain ⟨added, hadded, rfl, -⟩ := exists_relationsAdded hrelated
  rcases bind_eq_error_iff.mp h with h | ⟨⟨extended, types⟩, hinputs, h⟩
  · exact .inputs hresolved h
  have hpassed : Passed schema added extended types := ⟨hresolved, hadded, .of_foldlM hinputs⟩
  rcases bind_eq_error_iff.mp h with h | ⟨mutation, -, h⟩
  · exact .mutations hpassed (hpassed.mutation_eq ▸ h)
  · exact .queries hpassed (hpassed.query_eq ▸ eq_error_of_bind_pure h)

end Augment

end ClientSdk
