import ClientSdk.Proofs.Augmentation.Written
import Mathlib

/-!
# Schema Text Can Be Read Again

A schema that has been read from a text is written as a text that can be read in turn. It gives the
same roots and the same types in the same order, but for the documentation of arguments, which is
not written. Every type and both roots must have fields, since a document can declare none without.
One more thing stands in the way: a carriage return in a documentation, which is written as it is
and ends the line there.

## Main definitions

* `Schema.asPrinted`: a schema without the documentation of arguments.
* `Schema.texts`: the documentation that is written.
* `Schema.Placed`: the order in which types have been put in their places.

## Main results

* `Schema.placed_of_ofText`: how the types of a schema that has been read stand.
* `TypeDef.toTypeDef_toDecl`: a type is read as it is declared.
* `ofText_sdl_iff`: when the text of a schema is read again, and as what.
-/

namespace ClientSdk

open Token

/-! ### What is written -/

/-- An argument is written without its documentation. -/
def ArgumentDef.asPrinted (arg : ArgumentDef) : ArgumentDef := { arg with description := none }

/-- A field with its arguments as they are written. -/
def FieldDef.asPrinted (field : FieldDef) : FieldDef :=
  { field with arguments := field.arguments.map (·.asPrinted) }

/-- A type with its fields as they are written. -/
def TypeDef.asPrinted (type : TypeDef) : TypeDef :=
  { type with fields := type.fields.map (·.asPrinted) }

/-- The map with `f` applied to each definition. -/
def TypeMap.map (f : TypeDef → TypeDef) (types : TypeMap) : TypeMap where
  entries := types.entries.map fun entry => (entry.1, f entry.2)
  nodup_keys := by
    rw [List.map_map]
    exact types.nodup_keys

/-- A schema with its types and its roots as they are written. -/
def Schema.asPrinted (schema : Schema) : Schema where
  types := schema.types.map (·.asPrinted)
  query := schema.query.asPrinted
  mutation := schema.mutation.asPrinted

/-- The documentation of a type and of its fields. -/
def TypeDef.texts (type : TypeDef) : List String :=
  type.description.toList ++ type.fields.filterMap (·.description)

/-- The documentation of a schema that is written. -/
def Schema.texts (schema : Schema) : List String := schema.declarations.flatMap (·.texts)

/-- A documentation without carriage returns can be read. -/
theorem isPlainDescription_iff {description : Option String} :
    isPlainDescription description = true ↔ ∀ text ∈ description, '\r' ∉ text.toList := by
  cases description with
  | none => simp [isPlainDescription]
  | some text => simp [isPlainDescription, Lexer.isPlainText]

namespace TypeDef

variable {type : TypeDef}

/-- The documentation of a type and of its fields can be read when it has no carriage return. -/
theorem forall_mem_texts_iff :
    (∀ text ∈ type.texts, '\r' ∉ text.toList) ↔
      isPlainDescription type.description = true ∧
        ∀ field ∈ type.fields, isPlainDescription field.description = true := by
  simp only [texts, List.forall_mem_append, isPlainDescription_iff, Option.mem_toList,
    Option.mem_def, List.mem_filterMap, forall_exists_index, and_imp]
  exact and_congr_right fun _ =>
    ⟨fun h field hfield text htext => h text field hfield htext,
      fun h text field hfield htext => h field hfield text htext⟩

/-- **What a text declares can be read back** when it has fields, and no carriage returns in its
documentation. -/
theorem IsDeclared.isReadable_iff (h : type.IsDeclared) (hfields : type.fields ≠ []) :
    type.isReadable = true ↔ ∀ text ∈ type.texts, '\r' ∉ text.toList := by
  rw [TypeDef.isReadable_iff, forall_mem_texts_iff]
  refine and_congr_right fun _ => ?_
  exact ⟨fun hreadable => (hreadable.1 h.kind).2,
    fun hplain => ⟨fun _ => ⟨hfields, hplain⟩, h.arguments⟩⟩

end TypeDef

/-! ### Types in their places -/

/-- The scalars that every schema has, under their names. -/
def standardEntries : List (String × TypeDef) :=
  standardScalars.map fun name => (name, .givenScalar name)

/-- An insertion under another key than those in front changes what comes after them. -/
theorem TypeMap.exists_entries_insert {types : TypeMap} {key : String} (type : TypeDef)
    {front own : List (String × TypeDef)} (h : types.entries = front ++ own)
    (hfront : ∀ entry ∈ front, entry.1 ≠ key) :
    ∃ own', (types.insert key type).entries = front ++ own' ∧
      ∀ entry ∈ own', entry.2 = type ∨ entry ∈ own := by
  by_cases hkey : key ∈ types.keys
  · refine ⟨modifyEntries key (fun _ => type) own, ?_, fun entry hentry => ?_⟩
    · have hsame : modifyEntries key (fun _ => type) front = front :=
        (List.map_congr_left fun entry hentry => if_neg (hfront entry hentry)).trans
          (List.map_id front)
      have happend : modifyEntries key (fun _ => type) (front ++ own) =
          modifyEntries key (fun _ => type) front ++ modifyEntries key (fun _ => type) own :=
        List.map_append
      rw [insert, dif_pos hkey, ← hsame, ← happend, ← h]
      rfl
    · obtain ⟨old, hold, rfl⟩ := List.mem_map.mp hentry
      split
      · exact Or.inl rfl
      · exact Or.inr hold
  · refine ⟨own ++ [(key, type)], ?_, fun entry hentry => ?_⟩
    · rw [entries_insert_of_notMem hkey, h, List.append_assoc]
    · rcases List.mem_append.mp hentry with hold | hnew
      · exact Or.inr hold
      · exact Or.inl (by rw [List.mem_singleton.mp hnew])

namespace Schema

variable {schema : Schema}

/-- How types stand that a document declares, when they have been put in their places: after the
scalars that every schema has, and as roots. A root without fields has not been declared. -/
structure Placed (schema : Schema) : Prop where
  /-- The types come after the scalars that every schema has. -/
  entries : ∃ own, schema.types.entries = standardEntries ++ own ∧
    ∀ entry ∈ own, entry.2.IsDeclared ∧ entry.2.DistinctFields
  /-- The root of queries is declared. -/
  query : schema.query.fields ≠ [] → schema.query.IsDeclared ∧ schema.query.DistinctFields
  /-- The root of mutations is declared, and it is another one. -/
  mutation : schema.mutation.fields ≠ [] →
    (schema.mutation.IsDeclared ∧ schema.mutation.DistinctFields) ∧
      schema.mutation.name ≠ schema.query.name

/-- In the empty schema nothing is declared. -/
theorem placed_ofRoots (query mutation : String) : (ofRoots query mutation).Placed :=
  ⟨⟨[], rfl, fun _ hmem => absurd hmem List.not_mem_nil⟩, fun hfields => absurd rfl hfields,
    fun hfields => absurd rfl hfields⟩

/-- **A type that is put in its place** comes after the scalars, or becomes a root. -/
theorem Placed.place (h : schema.Placed) {type : TypeDef} (htype : type.IsDeclared)
    (hdistinct : type.DistinctFields) :
    (schema.place schema.query.name schema.mutation.name type).Placed := by
  rw [Schema.place]
  split
  · rename_i hquery
    refine ⟨h.entries, fun _ => ⟨htype, hdistinct⟩, ?_⟩
    rw [hquery]
    exact h.mutation
  split
  · rename_i hquery _
    exact ⟨h.entries, h.query, fun _ => ⟨⟨htype, hdistinct⟩, hquery⟩⟩
  · obtain ⟨own, hentries, hown⟩ := h.entries
    have hfront : ∀ entry ∈ standardEntries, entry.1 ≠ type.name := by
      rintro entry hentry hname
      obtain ⟨scalar, hscalar, rfl⟩ := List.mem_map.mp hentry
      exact notMem_standardScalars htype.name (hname ▸ hscalar)
    obtain ⟨own', hentries', hown'⟩ := TypeMap.exists_entries_insert type hentries hfront
    refine ⟨⟨own', hentries', fun entry hentry => ?_⟩, h.query, h.mutation⟩
    rcases hown' entry hentry with hnew | hold
    · rw [hnew]
      exact ⟨htype, hdistinct⟩
    · exact hown entry hold

/-- **How the types of a schema stand that has been read.** -/
theorem placed_of_ofText {text : String} (h : Schema.ofText text = .ok schema) :
    schema.Placed := by
  obtain ⟨query, mutation, types, -, -, htypes, rfl⟩ := exists_foldl_place_of_ofText h
  exact foldl_place_induction
    (fun _ h type htype => h.place (htypes type htype).1 (htypes type htype).2)
    (placed_ofRoots query mutation)

/-- Declared types that are no roots and have new names are put after the types. -/
theorem foldl_place_eq {query mutation : String} {types : List TypeDef}
    (hroots : ∀ type ∈ types, type.name ≠ query ∧ type.name ≠ mutation)
    (hnodup : (schema.types.keys ++ types.map (·.name)).Nodup) :
    (types.foldl (Schema.place query mutation) schema).types.entries =
        schema.types.entries ++ types.map (fun type => (type.name, type)) ∧
      (types.foldl (Schema.place query mutation) schema).query = schema.query ∧
      (types.foldl (Schema.place query mutation) schema).mutation = schema.mutation := by
  induction types generalizing schema with
  | nil => exact ⟨(List.append_nil _).symm, rfl, rfl⟩
  | cons type types ih =>
      obtain ⟨⟨hquery, hmutation⟩, hroots⟩ := List.forall_mem_cons.mp hroots
      have hplace : schema.place query mutation type = schema.declare type := by
        rw [Schema.place, if_neg hquery, if_neg hmutation]
      have hnew : type.name ∉ schema.types.keys := fun hmem =>
        List.disjoint_of_nodup_append hnodup hmem List.mem_cons_self
      have hentries : (schema.declare type).types.entries =
          schema.types.entries ++ [(type.name, type)] := TypeMap.entries_insert_of_notMem hnew type
      have hkeys : (schema.declare type).types.keys = schema.types.keys ++ [type.name] := by
        rw [TypeMap.keys, hentries, List.map_append]
        rfl
      rw [List.foldl_cons, hplace]
      have hnodup' : ((schema.declare type).types.keys ++ types.map (·.name)).Nodup := by
        rwa [hkeys, List.append_assoc]
      obtain ⟨hrest, hquery, hmutation⟩ := ih hroots hnodup'
      refine ⟨?_, hquery, hmutation⟩
      rw [hrest, hentries, List.append_assoc]
      rfl

end Schema

/-! ### Declarations are read back -/

/-- A type with a name at its bottom is written as it is. -/
theorem TypeRef.withNameInSdl_of_isName {type : TypeRef} (h : isName type.leafName = true) :
    type.withNameInSdl = type := by
  rw [withNameInSdl, nameInSdl_of_isName h, withLeafName_leafName]

namespace FieldDef

variable {field : FieldDef} (h : field.GoesBy (isName · = true))

include h

/-- A field of an object type is read as it is declared. -/
theorem toFieldDef_toDecl : field.toDecl.toFieldDef = field.asPrinted := by
  have harguments : (field.arguments.map (·.toDecl)).map (·.toArgumentDef) =
      field.arguments.map (·.asPrinted) := by
    rw [List.map_map]
    refine List.map_congr_left fun arg harg => ?_
    rw [Function.comp_apply, ArgumentDef.toDecl, InputDecl.toArgumentDef,
      TypeRef.withNameInSdl_of_isName (h.arguments arg harg).2]
    rfl
  rw [toDecl, FieldDecl.toFieldDef, harguments, TypeRef.withNameInSdl_of_isName h.type]
  rfl

/-- A field of an input type is read as it is declared. -/
theorem toFieldDef_toInputDecl (harguments : field.arguments = []) :
    field.toInputDecl.toFieldDef = field.asPrinted := by
  rw [toInputDecl, InputDecl.toFieldDef, TypeRef.withNameInSdl_of_isName h.type, asPrinted,
    harguments]
  rfl

end FieldDef

/-- **A type is read as it is declared.** -/
theorem TypeDef.toTypeDef_toDecl {type : TypeDef} (h : type.IsDeclared) :
    type.toDecl.toTypeDef = .ok type.asPrinted := by
  have hname := nameInSdl_of_isName h.goesBy.name
  have hbuiltin := h.builtin
  have hobject : type.fields.map (fun field => field.toDecl.toFieldDef) =
      type.fields.map (·.asPrinted) :=
    List.map_congr_left fun field hfield =>
      FieldDef.toFieldDef_toDecl (h.goesBy.fields field hfield)
  cases hkind : type.kind with
  | object =>
      rw [toDecl, toBody, hkind, TypeDecl.toTypeDef, asPrinted]
      simp only [List.map_map, Function.comp_def, hobject, hname, hkind, hbuiltin]
  | input =>
      have hinput : type.fields.map (fun field => field.toInputDecl.toFieldDef) =
          type.fields.map (·.asPrinted) :=
        List.map_congr_left fun field hfield =>
          FieldDef.toFieldDef_toInputDecl (h.goesBy.fields field hfield)
            (h.arguments hkind field hfield)
      rw [toDecl, toBody, hkind, TypeDecl.toTypeDef, asPrinted]
      simp only [List.map_map, Function.comp_def, hinput, hname, hkind, hbuiltin]
  | scalar => exact absurd hkind h.kind

namespace Schema

variable {schema : Schema}

/-- The types that the text of a schema declares beside the roots, in order, are those that a
document has declared. -/
theorem Placed.exists_ownTypes (h : schema.Placed) :
    ∃ own, schema.types.entries = standardEntries ++ own ∧ schema.ownTypes = own.map Prod.snd ∧
      ∀ type ∈ schema.ownTypes, type.IsDeclared ∧ type.DistinctFields := by
  obtain ⟨own, hentries, hown⟩ := h.entries
  have hstandard : (standardEntries.map Prod.snd).filter
      (fun type => !(type.isScalar && isStandardScalar type.name)) = [] := by decide
  have htypes : schema.ownTypes = own.map Prod.snd := by
    rw [ownTypes, TypeMap.values, hentries, List.map_append, List.filter_append, hstandard,
      List.nil_append, List.filter_eq_self, List.forall_mem_map]
    intro entry hentry
    rw [TypeDef.isScalar, beq_eq_false_iff_ne.mpr (hown entry hentry).1.kind]
    rfl
  refine ⟨own, hentries, htypes, ?_⟩
  rw [htypes, List.forall_mem_map]
  exact hown

/-- The types beside the roots are put in their places as they stand. -/
theorem Placed.types_foldl_place (h : schema.Placed) (hloaded : schema.Loaded) :
    ((schema.ownTypes.map (·.asPrinted)).foldl
      (Schema.place schema.query.name schema.mutation.name)
      (ofRoots schema.query.name schema.mutation.name)).types = schema.asPrinted.types := by
  obtain ⟨own, hentries, hown, -⟩ := h.exists_ownTypes
  have hkeys : ∀ entry ∈ own, entry.1 = entry.2.name := fun entry hentry =>
    hloaded.keyed entry (hentries ▸ List.mem_append_right _ hentry)
  have hroots : ∀ type ∈ schema.ownTypes.map (·.asPrinted),
      type.name ≠ schema.query.name ∧ type.name ≠ schema.mutation.name :=
    List.forall_mem_map.mpr fun type htype => (hloaded.isDeclared_of_mem_ownTypes htype).2
  have hnodup : ((ofRoots schema.query.name schema.mutation.name).types.keys ++
      (schema.ownTypes.map (·.asPrinted)).map (·.name)).Nodup := by
    have hall := schema.types.nodup_keys
    rw [hentries, List.map_append, List.map_congr_left hkeys] at hall
    rw [hown, List.map_map, List.map_map]
    exact hall
  have hstandard : standardEntries.map (fun entry => (entry.1, entry.2.asPrinted)) =
      standardEntries := by decide
  have hrest : (schema.ownTypes.map (·.asPrinted)).map (fun type => (type.name, type)) =
      own.map fun entry => (entry.1, entry.2.asPrinted) := by
    rw [hown, List.map_map, List.map_map]
    exact List.map_congr_left fun entry hentry => by rw [hkeys entry hentry]; rfl
  refine TypeMap.eq_of_entries_eq ((foldl_place_eq hroots hnodup).1.trans ?_)
  rw [asPrinted, TypeMap.map, hrest]
  dsimp only
  rw [hentries, List.map_append, hstandard]
  rfl

variable (hplaced : schema.Placed) (hloaded : schema.Loaded) (hquery : schema.query.fields ≠ [])
  (hmutation : schema.mutation.fields ≠ [])

include hplaced hquery hmutation

/-- What the text of a schema declares, a document has declared. -/
theorem Placed.isDeclared {type : TypeDef} (htype : type ∈ schema.declaredTypes) :
    type.IsDeclared ∧ type.DistinctFields := by
  obtain ⟨-, -, -, hown⟩ := hplaced.exists_ownTypes
  rcases mem_declaredTypes_iff.mp htype with hmem | rfl | ⟨-, rfl⟩
  · exact hown type hmem
  · exact hplaced.query hquery
  · exact (hplaced.mutation hmutation).1

include hloaded

/-- **The text of a schema that has been read declares nothing twice.** -/
theorem Placed.isDistinct : schema.IsDistinct where
  nodup := by
    have hname : ∀ type ∈ schema.declaredTypes, nameInSdl type.name = type.name :=
      fun type htype =>
        nameInSdl_of_isName (hplaced.isDeclared hquery hmutation htype).1.goesBy.name
    rw [nodup_nameInSdl_iff hloaded.keyed fun first hfirst second hsecond heq => by
      rwa [hname first hfirst, hname second hsecond] at heq]
    exact ⟨fun type htype => (hloaded.isDeclared_of_mem_ownTypes htype).2.imp_right
      fun hne _ => hne, fun _ => (hplaced.mutation hmutation).2.symm⟩
  builtin type htype := by
    have hdeclared := (hplaced.isDeclared hquery hmutation htype).1
    rw [nameInSdl_of_isName hdeclared.goesBy.name]
    exact hdeclared.name
  fields type htype _ := (hplaced.isDeclared hquery hmutation htype).2

/-- **What a schema declares is read back** as the schema. -/
theorem Placed.toSchema_toDeclarations :
    schema.toDeclarations.toSchema = .ok schema.asPrinted := by
  have hmutations : schema.hasMutations = true := by simpa [hasMutations] using hmutation
  have hread : schema.toDeclarations.types.mapM (·.toTypeDef) =
      .ok (schema.declaredTypes.map (·.asPrinted)) := by
    rw [mapM_eq_ok_iff, toDeclarations, List.forall₂_map_left_iff, List.forall₂_map_right_iff,
      List.forall₂_same]
    exact fun type htype =>
      TypeDef.toTypeDef_toDecl (hplaced.isDeclared hquery hmutation htype).1
  have hqueryRoot : schema.toDeclarations.root? .query = some schema.query.name := rfl
  have hmutationRoot : schema.toDeclarations.root? .mutation = some schema.mutation.name := by
    rw [Declarations.root?, toDeclarations, toRoots, hmutations]
    rfl
  have hdeclared : schema.declaredTypes.map (·.asPrinted) =
      schema.ownTypes.map (·.asPrinted) ++ [schema.query.asPrinted, schema.mutation.asPrinted] := by
    rw [declaredTypes, ← ownTypes, if_pos hmutations, List.map_append]
    rfl
  have hqueryPlace : schema.query.asPrinted.name = schema.query.name := rfl
  have hmutationPlace : schema.mutation.asPrinted.name = schema.mutation.name := rfl
  rw [Declarations.toSchema, hread, hqueryRoot, hmutationRoot, hdeclared]
  refine congrArg Except.ok ?_
  -- The roots come last, and each replaces the empty one of its name.
  rw [List.foldl_append, List.foldl_cons, List.foldl_cons, List.foldl_nil, Schema.place,
    hmutationPlace, Option.getD_some, Option.getD_some, if_neg (hplaced.mutation hmutation).2,
    if_pos rfl, Schema.place, if_pos hqueryPlace, hplaced.types_foldl_place hloaded]
  rfl

variable (htypes : ∀ type ∈ schema.types.values, type.name ∉ standardScalars → type.fields ≠ [])

include htypes

/-- **The text of a schema can be read back** when its documentation has no carriage return. -/
theorem Placed.forall_isReadable_iff :
    (∀ type ∈ schema.declaredTypes, type.isReadable = true) ↔
      ∀ description ∈ schema.texts, '\r' ∉ description.toList := by
  have hreadable : ∀ type ∈ schema.declaredTypes,
      (type.isReadable = true ↔ ∀ text ∈ type.texts, '\r' ∉ text.toList) := by
    intro type htype
    have hdeclared := (hplaced.isDeclared hquery hmutation htype).1
    refine hdeclared.isReadable_iff ?_
    rcases mem_declaredTypes_iff.mp htype with hown | rfl | ⟨-, rfl⟩
    · exact htypes type (List.mem_filter.mp hown).1 (notMem_standardScalars hdeclared.name)
    · exact hquery
    · exact hmutation
  rw [texts, List.forall_mem_flatMap]
  constructor
  · intro hall type htype
    have hdeclared : type ∈ schema.declaredTypes → ∀ text ∈ type.texts, '\r' ∉ text.toList :=
      fun hmem => (hreadable type hmem).mp (hall type hmem)
    rcases List.mem_cons.mp htype with rfl | htype
    · exact hdeclared query_mem_declaredTypes
    rcases List.mem_cons.mp htype with rfl | htype
    · exact hdeclared (mutation_mem_declaredTypes (by simpa [hasMutations] using hmutation))
    rcases hloaded.values type htype with ⟨-, heq⟩ | ⟨hown, -⟩
    · -- The scalars of every schema have no documentation.
      rw [heq]
      exact fun _ hmem => absurd hmem List.not_mem_nil
    · exact hdeclared (mem_declaredTypes_of_mem_values htype (beq_eq_false_iff_ne.mpr hown.kind))
  · exact fun hall type htype =>
      (hreadable type htype).mpr (hall type (mem_declarations_of_mem_declaredTypes htype))

end Schema

/-- **When the text of a schema is read again.** Let a schema be read from a text, and let both
roots and all types but the scalars of every schema have fields. Its own text can be read exactly
when no documentation has a carriage return, and what is read is then the schema itself, but for
the documentation of arguments. -/
theorem ofText_sdl_iff {text : String} {schema : Schema} (hload : Schema.ofText text = .ok schema)
    (hquery : schema.query.fields ≠ []) (hmutation : schema.mutation.fields ≠ [])
    (htypes : ∀ type ∈ schema.types.values, type.name ∉ standardScalars → type.fields ≠ []) :
    ((∃ result, Schema.ofText schema.sdl = .ok result) ↔
      ∀ description ∈ schema.texts, '\r' ∉ description.toList) ∧
    ∀ result, Schema.ofText schema.sdl = .ok result → result = schema.asPrinted := by
  have hloaded := Schema.loaded_of_ofText hload
  have hplaced := Schema.placed_of_ofText hload
  have hwritable := hloaded.isWritable
  have hdeclarations : Declarations.ofDocument? schema.document = some schema.toDeclarations :=
    Schema.ofDocument?_document.mpr ⟨hplaced.isDistinct hloaded hquery hmutation, rfl⟩
  have hread : Schema.ofText schema.sdl =
      if schema.declaredTypes.all (·.isReadable) then .ok schema.asPrinted
      else .error .malformedSchema := by
    rw [Schema.ofText, Schema.parse?_sdl hwritable.query hwritable.mutation hwritable.types]
    cases schema.declaredTypes.all (·.isReadable) with
    | false => rfl
    | true =>
        simp only [if_true, Option.bind_some, hdeclarations]
        exact hplaced.toSchema_toDeclarations hloaded hquery hmutation
  rw [← hplaced.forall_isReadable_iff hloaded hquery hmutation htypes, ← List.all_eq_true, hread]
  cases schema.declaredTypes.all (·.isReadable) with
  | false => exact ⟨by simp, by simp⟩
  | true => exact ⟨by simp, fun result h => (Except.ok.inj h).symm⟩

/-- A schema with documentation in quotes, an argument and an input type. -/
def ferrySchema : Schema where
  types := .ofList (standardScalars.map .givenScalar ++
    [{ name := "Ferry", description := some "A \"ro-ro\" ship\\"
       fields := [{ name := "name", type := .named "String" false }] },
     { name := "Ferry_In", kind := .input
       fields := [{ name := "ports", type := .list (.named "String" false) true }] }])
  query :=
    { name := "Query"
      fields := [
        { name := "ferry", type := .named "Ferry" true
          arguments := [
            { name := "id", type := .named "ID" false, description := some "a key" }] }] }
  mutation :=
    { name := "Mutation"
      fields := [
        { name := "launch", type := .named "Boolean" false
          arguments := [{ name := "data", type := .named "Ferry_In" true }] }] }

/-- The schema as it is declared. -/
def ferryText : String :=
  "type Query \x7b ferry(\"a key\" id: ID!): Ferry \x7d " ++
    "type Mutation { launch(data: Ferry_In): Boolean! } " ++
    "\"A \\\"ro-ro\\\" ship\\\\\" type Ferry { name: String! } input Ferry_In { ports: [String!] }"

set_option maxRecDepth 4000 in
theorem ofText_ferryText : Schema.ofText ferryText = .ok ferrySchema := by cbv

/-- The schema is read from its own text, without the documentation of the argument. -/
theorem ofText_sdl_iff_ferry :
    ∃ schema, Schema.ofText ferryText = .ok schema ∧ schema.query.fields ≠ [] ∧
      schema.mutation.fields ≠ [] ∧
      (∀ type ∈ schema.types.values, type.name ∉ standardScalars → type.fields ≠ []) ∧
      (∀ description ∈ schema.texts, '\r' ∉ description.toList) ∧
      Schema.ofText schema.sdl = .ok schema.asPrinted := by
  have hquery : ferrySchema.query.fields ≠ [] := by decide
  have hmutation : ferrySchema.mutation.fields ≠ [] := by decide
  have htypes : ∀ type ∈ ferrySchema.types.values,
      type.name ∉ standardScalars → type.fields ≠ [] := by decide
  have htexts : ∀ description ∈ ferrySchema.texts, '\r' ∉ description.toList := by decide
  obtain ⟨hiff, heq⟩ := ofText_sdl_iff ofText_ferryText hquery hmutation htypes
  obtain ⟨result, hresult⟩ := hiff.mpr htexts
  refine ⟨_, ofText_ferryText, hquery, hmutation, htypes, htexts, ?_⟩
  rw [hresult, heq result hresult]

/-- A schema with a carriage return in the documentation of a root. -/
def returnSchema : Schema where
  types := .ofList (standardScalars.map .givenScalar)
  query :=
    { name := "Query", description := some "a\rb"
      fields := [{ name := "version", type := .named "Int" true }] }
  mutation := { name := "Mutation", fields := [{ name := "touch", type := .named "Int" true }] }

/-- The schema as it is declared. -/
def returnText : String :=
  "\"a\\rb\" type Query { version: Int } type Mutation { touch: Int }"

set_option maxRecDepth 2000 in
theorem ofText_returnText : Schema.ofText returnText = .ok returnSchema := by cbv

/-- **A carriage return makes the text of a schema unreadable**, although it can be declared. -/
theorem ofText_sdl_fails_return :
    ∃ schema, Schema.ofText returnText = .ok schema ∧ schema.query.fields ≠ [] ∧
      schema.mutation.fields ≠ [] ∧
      (∀ type ∈ schema.types.values, type.name ∉ standardScalars → type.fields ≠ []) ∧
      ¬∃ result, Schema.ofText schema.sdl = .ok result := by
  refine ⟨_, ofText_returnText, by decide, by decide, by decide, ?_⟩
  rintro ⟨result, hresult⟩
  have hloaded := Schema.loaded_of_ofText ofText_returnText
  have hwritable := hloaded.isWritable
  have hunreadable : returnSchema.declaredTypes.all (·.isReadable) = false := by decide
  rw [Schema.ofText, Schema.parse?_sdl hwritable.query hwritable.mutation hwritable.types,
    hunreadable] at hresult
  cases hresult

end ClientSdk
