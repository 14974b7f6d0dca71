import ClientSdk.Augmentation
import ClientSdk.Proofs.Fallible
import ClientSdk.Proofs.WellFormed

/-!
# Passes of Augmentation

Augmentation goes over the schema in passes: result markers, relation fields, input types,
mutations and queries. This module says what each pass has done when it succeeds, in terms of
the schema that it was given and of what it added.

## Main definitions

* `TypeMap.withFields`: a type map with fields added at the end of its types.
* `Augment.RelationsAdded`: which relation fields a pass over relations has added.
* `Augment.InputsAdded`: which input types a pass over object types has added.

## Main results

* `Augment.entries_addResultScalars`, `Augment.exists_relationsAdded`,
  `Augment.InputsAdded.of_foldlM`, `Augment.addRootFields_eq_ok_iff`: one result for each
  pass.
* `Augment.augment_eq_ok_iff`: augmentation is its passes, one after the other.
-/

namespace ClientSdk

/-! ### Types with more fields -/

/-- A type with fields after its own. -/
def TypeDef.pushFields (type : TypeDef) (fields : List FieldDef) : TypeDef :=
  { type with fields := type.fields ++ fields }

theorem TypeDef.pushFields_nil (type : TypeDef) : type.pushFields [] = type := by
  rw [pushFields, List.append_nil]

theorem TypeDef.pushField_pushFields (type : TypeDef) (fields : List FieldDef)
    (field : FieldDef) :
    (type.pushFields fields).pushField field = type.pushFields (fields ++ [field]) := by
  rw [pushField, pushFields, pushFields, List.append_assoc]

/-- A type with more fields has its own fields and the new ones. -/
theorem TypeDef.hasField_pushFields {type : TypeDef} {fields : List FieldDef} {name : String} :
    (type.pushFields fields).hasField name = true ↔
      type.hasField name = true ∨ name ∈ fields.map (·.name) := by
  rw [hasField_iff, hasField_iff, pushFields, List.map_append, List.mem_append]

/-! ### Type maps -/

namespace TypeMap

/-- Type maps with the same entries are equal. -/
theorem eq_of_entries_eq {a b : TypeMap} (h : a.entries = b.entries) : a = b := by
  cases a
  cases b
  cases h
  rfl

/-- A type under a new key comes last. -/
theorem entries_insert_of_notMem {types : TypeMap} {key : String} (h : key ∉ types.keys)
    (type : TypeDef) : (types.insert key type).entries = types.entries ++ [(key, type)] := by
  rw [insert, dif_neg h]

/-- The fields that are added to the type under `key`, in order. -/
def addedTo (added : List (String × FieldDef)) (key : String) : List FieldDef :=
  (added.filter fun entry => entry.1 == key).map Prod.snd

/-- The fields that are added under a key are the additions with that key. -/
theorem mem_addedTo_iff {added : List (String × FieldDef)} {key : String} {field : FieldDef} :
    field ∈ addedTo added key ↔ (key, field) ∈ added := by
  rw [addedTo, List.mem_map]
  constructor
  · rintro ⟨⟨other, field⟩, hmem, rfl⟩
    obtain ⟨hadded, hkey⟩ := List.mem_filter.mp hmem
    obtain rfl : other = key := beq_iff_eq.mp hkey
    exact hadded
  · intro hadded
    exact ⟨(key, field), List.mem_filter.mpr ⟨hadded, beq_self_eq_true key⟩, rfl⟩

/-- The map with fields added at the end of its types, each to the type under its key. -/
def withFields (types : TypeMap) (added : List (String × FieldDef)) : TypeMap where
  entries := types.entries.map fun entry =>
    (entry.1, entry.2.pushFields (addedTo added entry.1))
  nodup_keys := by
    rw [List.map_map]
    exact types.nodup_keys

theorem withFields_nil (types : TypeMap) : types.withFields [] = types := by
  refine eq_of_entries_eq ((List.map_congr_left fun entry _ => ?_).trans (List.map_id _))
  rw [addedTo, List.filter_nil, List.map_nil, TypeDef.pushFields_nil]
  rfl

/-- Added fields keep the keys. -/
theorem keys_withFields (types : TypeMap) (added : List (String × FieldDef)) :
    (types.withFields added).keys = types.keys := by
  rw [keys, withFields, List.map_map]
  rfl

/-- Added fields come after the fields of the type under their key. -/
theorem get?_withFields (types : TypeMap) (added : List (String × FieldDef)) (key : String) :
    (types.withFields added).get? key =
      (types.get? key).map fun type => type.pushFields (addedTo added key) :=
  lookup_map_value (fun key (type : TypeDef) => type.pushFields (addedTo added key))
    types.entries key

/-- Adding one more field to a type adds it to the fields that were added. -/
theorem modify_withFields (types : TypeMap) (added : List (String × FieldDef)) (key : String)
    (field : FieldDef) :
    (types.withFields added).modify key (·.pushField field) =
      types.withFields (added ++ [(key, field)]) := by
  apply eq_of_entries_eq
  dsimp only [modify, modifyEntries, withFields]
  rw [List.map_map]
  refine List.map_congr_left fun entry _ => ?_
  have hadded : addedTo (added ++ [(key, field)]) entry.1 =
      addedTo added entry.1 ++ if key = entry.1 then [field] else [] := by
    rw [addedTo, List.filter_append, List.map_append, addedTo]
    by_cases hkey : key = entry.1
    · simp [hkey]
    · simp [hkey]
  rw [hadded, Function.comp_apply]
  by_cases hkey : entry.1 = key
  · rw [if_pos hkey, if_pos hkey.symm, TypeDef.pushField_pushFields]
  · rw [if_neg hkey, if_neg (Ne.symm hkey), List.append_nil]

end TypeMap

namespace Augment

variable {schema : Schema}

/-! ### Result markers -/

/-- The result markers, under their names. -/
def markers : List (String × TypeDef) :=
  mutationResults.map fun name => (name, .givenScalar name)

/-- Where the names of the markers are free, they come after the types, and nothing else is
changed. -/
theorem entries_addResultScalars (hfree : ∀ name ∈ mutationResults, name ∉ schema.types.keys) :
    (addResultScalars schema).types.entries = schema.types.entries ++ markers ∧
      (addResultScalars schema).query = schema.query ∧
      (addResultScalars schema).mutation = schema.mutation := by
  suffices key : ∀ (names : List String) (current : Schema), names.Nodup →
      (∀ name ∈ names, name ∉ current.types.keys) →
      let marked := names.foldl (fun schema name => schema.declare (.givenScalar name)) current
      marked.types.entries =
          current.types.entries ++ names.map (fun name => (name, TypeDef.givenScalar name)) ∧
        marked.query = current.query ∧ marked.mutation = current.mutation from
    key mutationResults schema (by decide) hfree
  intro names
  induction names with
  | nil =>
      intro current _ _
      exact ⟨(List.append_nil _).symm, rfl, rfl⟩
  | cons name names ih =>
      intro current hnodup hnew
      rw [List.nodup_cons] at hnodup
      obtain ⟨hname, hnames⟩ := List.forall_mem_cons.mp hnew
      have hentries : (current.declare (.givenScalar name)).types.entries =
          current.types.entries ++ [(name, .givenScalar name)] :=
        TypeMap.entries_insert_of_notMem hname _
      obtain ⟨hrest, hquery, hmutation⟩ := ih (current.declare (.givenScalar name)) hnodup.2
        fun other hother hmem => by
          rw [TypeMap.keys, hentries, List.map_append, List.mem_append] at hmem
          rcases hmem with hold | hsame
          · exact hnames other hother hold
          · obtain rfl : other = name := List.mem_singleton.mp hsame
            exact hnodup.1 hother
      refine ⟨?_, hquery, hmutation⟩
      rw [List.foldl_cons, hrest, hentries, List.append_assoc]
      rfl

/-! ### Relation fields -/

/-- What has been added after a pass over `relations`: the first relation of each name for each
type, to a type that had no field of that name. -/
structure RelationsAdded (schema : Schema) (relations added : List (String × FieldDef)) :
    Prop where
  /-- Relations are added in their order. -/
  sublist : added.Sublist relations
  /-- For each relation there is one of its name on its type. -/
  exists_added : ∀ relation ∈ relations,
    (relation.1, relation.2.name) ∈ added.map fun entry => (entry.1, entry.2.name)
  /-- No type gets two relations of one name. -/
  nodup : (added.map fun entry => (entry.1, entry.2.name)).Nodup
  /-- The types that get relations exist, and have no fields of these names. -/
  hasField_eq_false : ∀ entry ∈ added, ∃ type,
    schema.get? entry.1 = some type ∧ type.hasField entry.2.name = false

/-- A pass over relations starts with nothing added. -/
theorem relationsAdded_nil : RelationsAdded schema [] [] :=
  ⟨List.Sublist.refl _, fun _ h => absurd h List.not_mem_nil, List.nodup_nil,
    fun _ h => absurd h List.not_mem_nil⟩

/-- **Adding a relation field** leaves it out where its type has got one of that name, and else
puts it after the fields of its type. -/
theorem RelationsAdded.step {relations added : List (String × FieldDef)}
    {relation : String × FieldDef} {state : Schema × List (String × String)}
    (h : RelationsAdded schema relations added)
    (hstep : addRelation ({ schema with types := schema.types.withFields added },
      added.map fun entry => (entry.1, entry.2.name)) relation = .ok state) :
    ∃ added', RelationsAdded schema (relations ++ [relation]) added' ∧
      state = ({ schema with types := schema.types.withFields added' },
        added'.map fun entry => (entry.1, entry.2.name)) := by
  obtain ⟨key, field⟩ := relation
  rw [addRelation] at hstep
  dsimp only at hstep
  split at hstep
  · rename_i hknown
    obtain rfl := Except.ok.inj hstep
    refine ⟨added, ⟨h.sublist.trans (List.sublist_append_left _ _), ?_, h.nodup,
      h.hasField_eq_false⟩, rfl⟩
    intro other hother
    rcases List.mem_append.mp hother with hold | hnew
    · exact h.exists_added other hold
    · obtain rfl := List.mem_singleton.mp hnew
      exact hknown
  · rename_i hunknown
    rw [bind_eq_ok_iff] at hstep
    obtain ⟨target, htarget, hstep⟩ := hstep
    split at hstep
    · cases hstep
    · rename_i hfresh
      obtain rfl := Except.ok.inj hstep
      rw [typeNamed_eq_ok_iff, Schema.get?, TypeMap.get?_withFields,
        Option.map_eq_some_iff] at htarget
      obtain ⟨type, htype, rfl⟩ := htarget
      rw [TypeDef.hasField_pushFields, not_or, Bool.not_eq_true] at hfresh
      refine ⟨added ++ [(key, field)], ⟨?_, ?_, ?_, ?_⟩, ?_⟩
      · exact h.sublist.append (List.Sublist.refl _)
      · intro other hother
        rw [List.map_append, List.mem_append]
        rcases List.mem_append.mp hother with hold | hnew
        · exact Or.inl (h.exists_added other hold)
        · obtain rfl := List.mem_singleton.mp hnew
          exact Or.inr (List.mem_singleton_self _)
      · rw [List.map_append]
        exact h.nodup.append (List.nodup_singleton _) (List.disjoint_singleton.mpr hunknown)
      · intro entry hentry
        rcases List.mem_append.mp hentry with hold | hnew
        · exact h.hasField_eq_false entry hold
        · obtain rfl := List.mem_singleton.mp hnew
          exact ⟨type, htype, hfresh.1⟩
      · rw [TypeMap.modify_withFields, List.map_append]
        rfl

/-- **A pass over relations** adds the relation fields to their types, and logs them in order. -/
theorem exists_relationsAdded {relations : List (String × FieldDef)} {related : Schema}
    {log : List (String × String)} (h : addRelations schema relations = .ok (related, log)) :
    ∃ added, RelationsAdded schema relations added ∧
      related = { schema with types := schema.types.withFields added } ∧
      log = added.map fun entry => (entry.1, entry.2.name) := by
  have hrun : ∃ added, RelationsAdded schema relations added ∧
      (related, log) = ({ schema with types := schema.types.withFields added },
        added.map fun entry => (entry.1, entry.2.name)) := by
    refine foldlM_induction (motive := fun done state => ∃ added,
      RelationsAdded schema done added ∧
        state = ({ schema with types := schema.types.withFields added },
          added.map fun entry => (entry.1, entry.2.name))) h
      ⟨[], relationsAdded_nil, by rw [TypeMap.withFields_nil]; rfl⟩ ?_
    rintro done relation rest state next - ⟨added, hadded, rfl⟩ hstep
    exact hadded.step hstep
  obtain ⟨added, hadded, heq⟩ := hrun
  obtain ⟨hrelated, hlog⟩ := Prod.mk.inj heq
  exact ⟨added, hadded, hrelated, hlog⟩

/-! ### Input types -/

/-- The input types of object types, under their names. -/
def inputEntries (objects : List String) (types : List TypeDef) : List (String × TypeDef) :=
  types.map fun type => (inputTypeName type.name, inputType objects type)

/-- What has been added after a pass over the names `done` of object types: the input types of
these types, under names that were free. -/
structure InputsAdded (schema : Schema) (objects done : List String) (extended : Schema)
    (types : List TypeDef) : Prop where
  /-- The types are those that the schema has under the names. -/
  types_eq : List.Forall₂ (fun name type => schema.get? name = some type) done types
  /-- The names of their input types are free. -/
  notMem_keys : ∀ type ∈ types, inputTypeName type.name ∉ schema.types.keys
  /-- The input types come last. -/
  entries_eq : extended.types.entries = schema.types.entries ++ inputEntries objects types
  /-- The root of queries is the same. -/
  query_eq : extended.query = schema.query
  /-- The root of mutations is the same. -/
  mutation_eq : extended.mutation = schema.mutation

namespace InputsAdded

variable {objects done : List String} {extended : Schema} {types : List TypeDef}

/-- The types that were there before are still there. -/
theorem get?_eq (h : InputsAdded schema objects done extended types) {name : String}
    {type : TypeDef} (hget : schema.get? name = some type) : extended.get? name = some type := by
  rw [Schema.get?, TypeMap.get?_eq_some_iff] at hget ⊢
  rw [h.entries_eq]
  exact List.mem_append_left _ hget

/-- The types that have been read have the names that were asked for. -/
theorem map_name_types (h : InputsAdded schema objects done extended types)
    (hkeyed : schema.Keyed) : types.map (·.name) = done := by
  have hnames : List.Forall₂ (fun name type => name = type.name) done types :=
    h.types_eq.imp fun _ _ hget => (hkeyed.name_eq hget).symm
  rw [← List.forall₂_map_right_iff, List.forall₂_eq_eq_eq] at hnames
  exact hnames.symm

/-- **Adding an input type** reads the object type as the schema has it and puts its input type
last. -/
theorem step {name : String} {state : Schema × List TypeDef}
    (h : InputsAdded schema objects done extended types) (hname : name ∈ schema.types.keys)
    (hstep : addInput objects (extended, types) name = .ok state) :
    InputsAdded schema objects (done ++ [name]) state.1 state.2 := by
  rw [addInput, bind_eq_ok_iff] at hstep
  obtain ⟨type, htype, hstep⟩ := hstep
  split at hstep
  · cases hstep
  · rename_i hfree
    obtain rfl := Except.ok.inj hstep
    obtain ⟨found, hfound⟩ := Option.isSome_iff_exists.mp (TypeMap.contains_iff.mpr hname)
    rw [typeNamed_eq_ok_iff, h.get?_eq hfound] at htype
    obtain rfl := Option.some.inj htype
    rw [TypeMap.contains_iff] at hfree
    refine ⟨?_, ?_, ?_, h.query_eq, h.mutation_eq⟩
    · exact List.rel_append h.types_eq (.cons hfound .nil)
    · intro type htype hmem
      rcases List.mem_append.mp htype with hold | hnew
      · exact h.notMem_keys type hold hmem
      · obtain rfl := List.mem_singleton.mp hnew
        refine hfree ?_
        rw [TypeMap.keys, h.entries_eq, List.map_append]
        exact List.mem_append_left _ hmem
    · have hentries : (extended.declare (inputType objects found)).types.entries =
          extended.types.entries ++ inputEntries objects [found] :=
        TypeMap.entries_insert_of_notMem hfree _
      rw [hentries, h.entries_eq, List.append_assoc, inputEntries, inputEntries, inputEntries,
        List.map_append]

/-- **A pass over object types** adds their input types, in order. -/
theorem of_foldlM {names : List String} {state : Schema × List TypeDef}
    (h : names.foldlM (addInput objects) (schema, []) = .ok state)
    (hnames : ∀ name ∈ names, name ∈ schema.types.keys) :
    InputsAdded schema objects names state.1 state.2 := by
  refine foldlM_induction (motive := fun done state =>
    InputsAdded schema objects done state.1 state.2) h
    ⟨.nil, fun _ hmem => absurd hmem List.not_mem_nil, (List.append_nil _).symm, rfl, rfl⟩ ?_
  rintro done name rest ⟨current, read⟩ state hsplit hadded hstep
  exact hadded.step (hnames name (by simp [hsplit])) hstep

end InputsAdded

/-! ### Root fields -/

/-- **Adding fields to a root** succeeds when their names are distinct and free, and puts them
after the fields of the root. -/
theorem addRootFields_eq_ok_iff {root result : TypeDef} {fields : List FieldDef} :
    addRootFields root fields = .ok result ↔ (fields.map (·.name)).Nodup ∧
      (∀ field ∈ fields, root.hasField field.name = false) ∧ result = root.pushFields fields := by
  induction fields generalizing root with
  | nil =>
      rw [addRootFields, List.foldlM_nil, pure_eq_ok_iff, TypeDef.pushFields_nil]
      exact ⟨fun h => ⟨List.nodup_nil, fun _ hmem => absurd hmem List.not_mem_nil, h.symm⟩,
        fun h => h.2.2.symm⟩
  | cons field rest ih =>
      have hfree : ∀ other, (root.pushField field).hasField other = false ↔
          root.hasField other = false ∧ other ≠ field.name := by
        intro other
        have hiff := @TypeDef.hasField_pushFields root [field] other
        rw [List.map_singleton, List.mem_singleton] at hiff
        rw [← Bool.not_eq_true, ← Bool.not_eq_true, ← not_or]
        exact not_congr hiff
      have hpush : ∀ fields, (root.pushField field).pushFields fields =
          root.pushFields (field :: fields) := by
        intro fields
        rw [TypeDef.pushField, TypeDef.pushFields, TypeDef.pushFields, List.append_assoc]
        rfl
      rw [addRootFields, List.foldlM_cons, bind_eq_ok_iff, List.map_cons, List.nodup_cons,
        List.forall_mem_cons]
      constructor
      · rintro ⟨middle, hstep, hrest⟩
        rw [addRootField] at hstep
        split at hstep
        · cases hstep
        · rename_i hfield
          obtain rfl := Except.ok.inj hstep
          obtain ⟨hnodup, hnew, rfl⟩ := ih.mp hrest
          refine ⟨⟨?_, hnodup⟩, ⟨Bool.not_eq_true _ ▸ hfield, ?_⟩, hpush rest⟩
          · rw [List.mem_map]
            rintro ⟨other, hother, hname⟩
            exact ((hfree _).mp (hnew other hother)).2 hname
          · exact fun other hother => ((hfree _).mp (hnew other hother)).1
      · rintro ⟨⟨hfield, hnodup⟩, ⟨hfirst, hrest⟩, rfl⟩
        refine ⟨root.pushField field, ?_, ih.mpr ⟨hnodup, ?_, (hpush rest).symm⟩⟩
        · rw [addRootField, hfirst, if_neg Bool.false_ne_true]
        · intro other hother
          rw [hfree]
          refine ⟨hrest other hother, fun hname => hfield ?_⟩
          exact hname ▸ List.mem_map_of_mem hother

/-! ### All passes -/

/-- **Augmentation is its passes**, one after the other. -/
theorem augment_eq_ok_iff {result : Augmentation} :
    augment schema = .ok result ↔
      requireReferences schema schema.userObjects = .ok () ∧
      ∃ related log extended types mutation query,
        addRelations (addResultScalars schema)
            (relations (addResultScalars schema) schema.userObjects) = .ok (related, log) ∧
        addInputs related (schema.userObjects.map (·.name)) = .ok (extended, types) ∧
        addRootFields extended.mutation (types.flatMap mutationFields) = .ok mutation ∧
        addRootFields extended.query (types.flatMap (queryFields extended)) = .ok query ∧
        result = {
          schema := { extended with query, mutation }
          changes :=
            mutationResults.map .markerType ++
            log.map (fun entry => .relationField entry.1 entry.2) ++
            types.map (fun type => .inputType (inputTypeName type.name)) ++
            (types.flatMap mutationFields).map (fun field => .mutationField field.name) ++
            (types.flatMap (queryFields extended)).map (fun field => .queryField field.name) } := by
  simp only [augment, bind_eq_ok_iff, pure_eq_ok_iff, Prod.exists]
  constructor
  · rintro ⟨⟨⟩, hrefs, related, log, hrelated, extended, types, hextended, mutation, hmutation,
      query, hquery, rfl⟩
    exact ⟨hrefs, related, log, extended, types, mutation, query, hrelated, hextended,
      hmutation, hquery, rfl⟩
  · rintro ⟨hrefs, related, log, extended, types, mutation, query, hrelated, hextended,
      hmutation, hquery, rfl⟩
    exact ⟨(), hrefs, related, log, hrelated, extended, types, hextended, mutation, hmutation,
      query, hquery, rfl⟩

end Augment

end ClientSdk
