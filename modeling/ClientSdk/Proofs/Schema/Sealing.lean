import ClientSdk.Proofs.Document.Grounded
import ClientSdk.Proofs.Lookup
import ClientSdk.Proofs.Schema.ReadingBack
import ClientSdk.Proofs.WellFormed

/-!
# When a Schema Is Valid

A schema is checked as a document. Since schema text is read back as it was written, what is
checked are the types of the schema themselves, under the names that they have in schema text and
beside the types of every schema.

## Main definitions

* `Schema.toDeclarations`: what schema text declares.
* `Schema.Seals`: the schema is valid as a document.

## Main results

* `Schema.ofDocument?_document`: the document of schema text declares these things.
* `Schema.toValid_eq_ok_iff`: a schema is made valid exactly when it is valid as a document, and
  operations are then checked against its own types.
* `Schema.IsDistinct.bodySatisfies_iff`: which types a name stands for.
* `Schema.isValid_iff`: what a schema is checked for.
-/

namespace ClientSdk

open Token

/-! ### Kinds of types -/

namespace TypeDef

/-- An object type is declared as one. -/
theorem isObject_toBody (type : TypeDef) : type.toBody.isObject = true ↔ type.kind = .object := by
  rw [toBody]
  cases type.kind with
  | object => exact iff_of_true rfl rfl
  | input => exact iff_of_false Bool.false_ne_true (by simp)
  | scalar => exact iff_of_false Bool.false_ne_true (by simp)

/-- All but input types can be answered. -/
theorem isOutput_toBody (type : TypeDef) : type.toBody.isOutput = true ↔ type.kind ≠ .input := by
  rw [toBody]
  cases type.kind with
  | object => exact iff_of_true rfl (by simp)
  | input => exact iff_of_false Bool.false_ne_true (by simp)
  | scalar => exact iff_of_true rfl (by simp)

/-- All but object types can be passed. -/
theorem isInput_toBody (type : TypeDef) : type.toBody.isInput = true ↔ type.kind ≠ .object := by
  rw [toBody]
  cases type.kind with
  | object => exact iff_of_false Bool.false_ne_true (by simp)
  | input => exact iff_of_true rfl (by simp)
  | scalar => exact iff_of_true rfl (by simp)

/-- What a type requires are the types of its single fields that exclude null, if it is an input
type. -/
theorem mem_requiredTypes_toDecl {type : TypeDef} {name : String} :
    name ∈ Declarations.requiredTypes type.toDecl ↔ type.kind = .input ∧
      ∃ field ∈ type.fields, ∃ leaf, field.type = .named leaf false ∧ nameInSdl leaf = name := by
  rw [Declarations.requiredTypes, toDecl, toBody]
  cases type.kind with
  | object => simp
  | scalar => simp
  | input =>
      simp only [List.mem_filterMap, List.mem_map, exists_exists_and_eq_and, true_and]
      refine exists_congr fun field => and_congr_right fun _ => ?_
      rw [FieldDef.toInputDecl, TypeRef.withNameInSdl]
      cases field.type with
      | named leaf nullable =>
          cases nullable with
          | false => simp [TypeRef.withLeafName, TypeRef.leafName]
          | true => simp [TypeRef.withLeafName]
      | list element nullable => simp [TypeRef.withLeafName]

end TypeDef

namespace Schema

variable {schema : Schema}

/-! ### Declarations of schema text -/

/-- What schema text declares: the types under the names that they have there, and the
directive. -/
def toDeclarations (schema : Schema) : Declarations where
  types := schema.declaredTypes.map (·.toDecl)
  builtins := BuiltIn.types
  roots := schema.toRoots
  directives := pickDirective :: BuiltIn.directives

/-- No type and no field is declared twice, and no type has the name of one of every schema. -/
structure IsDistinct (schema : Schema) : Prop where
  /-- Types have distinct names. -/
  nodup : (schema.declaredTypes.map fun type => nameInSdl type.name).Nodup
  /-- No type has the name of one of every schema. -/
  builtin : ∀ type ∈ schema.declaredTypes, BuiltIn.isTypeName (nameInSdl type.name) = false
  /-- The fields of a type have distinct names. -/
  fields : ∀ type ∈ schema.declaredTypes, type.kind ≠ .scalar → type.DistinctFields

/-- What the definitions of schema text are, sort by sort. -/
theorem parts_document (schema : Schema) :
    schema.document.types = schema.declaredTypes.map (·.toDecl) ∧
      schema.document.typeExtensions = [] ∧ schema.document.schemas = [schema.toRoots] ∧
      schema.document.addedRoots = [] ∧ schema.document.directives = [pickDirective] ∧
      schema.document.operations = [] ∧ schema.document.fragments = [] := by
  refine ⟨?_, ?_, ?_, ?_, ?_, ?_, ?_⟩
  all_goals
    simp only [document, Document.types, Document.typeExtensions, Document.schemas,
      Document.addedRoots, Document.directives, Document.operations, Document.fragments,
      List.filterMap_cons, List.filterMap_append, List.filterMap_map, List.flatMap_cons,
      List.flatMap_append, List.flatMap_map, List.filterMap_nil, List.flatMap_nil]
    simp

/-- Without additions, a type is as it is declared, if nothing is declared twice. -/
theorem extend?_nil (declaration : TypeDecl) :
    declaration.extend? [] = if declaration.body.isDistinct then some declaration else none := by
  rfl

/-- A list whose members are kept under a condition is kept when all of them satisfy it. -/
theorem mapM_ite {α : Type} {good : α → Bool} (as : List α) :
    as.mapM (fun a => if good a then some a else none) =
      if as.all good then some as else none := by
  induction as with
  | nil => rfl
  | cons a as ih =>
      rw [List.mapM_cons, ih, List.all_cons]
      cases good a with
      | false => rfl
      | true =>
          cases as.all good with
          | false => rfl
          | true => rfl

/-- The fields of a type are distinct as declarations when they are as they are. -/
theorem isDistinct_toDecl (type : TypeDef) :
    type.toDecl.body.isDistinct = true ↔ (type.kind ≠ .scalar → type.DistinctFields) := by
  have hdecl : type.fields.map (fun field => field.toDecl.name) = type.fields.map (·.name) := rfl
  have hinput : type.fields.map (fun field => field.toInputDecl.name) =
      type.fields.map (·.name) := rfl
  rw [TypeDef.toDecl, TypeDef.toBody, TypeDef.DistinctFields]
  cases type.kind with
  | scalar => simp [TypeBody.isDistinct]
  | object => simp [TypeBody.isDistinct, allDistinct, Function.comp_def, hdecl]
  | input => simp [TypeBody.isDistinct, allDistinct, Function.comp_def, hinput]

/-- Whether something is declared twice is found in the document. -/
theorem isDistinct_iff :
    schema.IsDistinct ↔
      (allDistinct (schema.declaredTypes.map fun type => nameInSdl type.name) &&
        !(schema.declaredTypes.map fun type => nameInSdl type.name).any
          (BuiltIn.types.map (·.name)).contains) = true ∧
      (schema.declaredTypes.all fun type => type.toDecl.body.isDistinct) = true := by
  have hbuiltin : ∀ name, (BuiltIn.types.map (·.name)).contains name =
      BuiltIn.isTypeName name := by
    intro name
    rw [BuiltIn.isTypeName, Bool.eq_iff_iff, List.contains_iff_mem, List.mem_map, List.any_eq_true]
    simp
  rw [Bool.and_eq_true, Bool.not_eq_true', List.any_eq_false, List.all_eq_true, allDistinct,
    decide_eq_true_iff, List.forall_mem_map]
  simp only [hbuiltin, isDistinct_toDecl, Bool.not_eq_true]
  exact ⟨fun h => ⟨⟨h.nodup, h.builtin⟩, h.fields⟩, fun h => ⟨h.1.1, h.1.2, h.2⟩⟩

/-- **The document of schema text** declares the types of the schema, if nothing is declared
twice. -/
theorem ofDocument?_document {declarations : Declarations} :
    Declarations.ofDocument? schema.document = some declarations ↔
      schema.IsDistinct ∧ declarations = schema.toDeclarations := by
  obtain ⟨htypes, hadditions, hschemas, hadded, hdirectives, hoperations, hfragments⟩ :=
    schema.parts_document
  have hroots : Declarations.rootsOf? schema.document = some schema.toRoots := by
    have hdistinct : allDistinct (schema.toRoots.map Prod.fst) = true := by
      rw [toRoots]
      cases schema.hasMutations with
      | false => rfl
      | true => rfl
    simp only [Declarations.rootsOf?, hschemas, hadded, Option.bind_some, List.append_nil,
      hdistinct, if_true]
  have hbuiltins : (BuiltIn.types.all fun type => type.body.isDistinct) = true := by decide
  have hbuiltinDirectives : (BuiltIn.directives.filter fun directive =>
      !([pickDirective].map (·.name)).contains directive.name) = BuiltIn.directives := rfl
  have hnames : (schema.declaredTypes.map (·.toDecl)).map (·.name) =
      schema.declaredTypes.map fun type => nameInSdl type.name := by
    rw [List.map_map]
    rfl
  have hdirectiveNames : allDistinct ([pickDirective].map (·.name)) = true := rfl
  rw [isDistinct_iff, Declarations.ofDocument?]
  simp only [htypes, hadditions, hdirectives, hoperations, hfragments, hroots, hnames,
    hdirectiveNames, hbuiltins, hbuiltinDirectives, Declarations.undeclared, List.append_nil,
    List.isEmpty_nil, Bool.and_true, List.all_map, extend?_nil, mapM_ite, Function.comp_def]
  by_cases hfirst : (allDistinct (schema.declaredTypes.map fun type => nameInSdl type.name) &&
      !(schema.declaredTypes.map fun type => nameInSdl type.name).any
        (BuiltIn.types.map (·.name)).contains) = true
  · rw [if_pos hfirst, and_iff_right hfirst]
    by_cases hsecond : (schema.declaredTypes.all fun type => type.toDecl.body.isDistinct) = true
    · rw [if_pos hsecond, and_iff_right hsecond]
      exact ⟨fun h => (Option.some.inj h).symm, fun h => congrArg some h.symm⟩
    · rw [if_neg hsecond]
      exact iff_of_false (Option.some_ne_none _).symm fun h => hsecond h.1
  · rw [if_neg hfirst]
    exact iff_of_false (Option.some_ne_none _).symm fun h => hfirst h.1.1

/-! ### Validity -/

/-- The names that the text of a schema is written with can be written. -/
structure IsWritable (schema : Schema) : Prop where
  /-- The root of queries is called by a name. -/
  query : isName schema.query.name = true
  /-- The root of mutations is called by a name. -/
  mutation : isName schema.mutation.name = true
  /-- Types and fields go by names, or by those of markers. -/
  types : ∀ type ∈ schema.declaredTypes, type.GoesBy IsTypeName

/-- The schema is valid as a document. -/
structure Seals (schema : Schema) : Prop where
  /-- The text of each type can be read back. -/
  readable : ∀ type ∈ schema.declaredTypes, type.isReadable = true
  /-- Nothing is declared twice. -/
  distinct : schema.IsDistinct
  /-- What is declared is valid. -/
  valid : schema.toDeclarations.isValid = true

/-- **A schema is made valid exactly when it is valid as a document**, and what operations are
checked against are its own types. -/
theorem toValid_eq_ok_iff (h : schema.IsWritable) {valid : ValidSchema} :
    schema.toValid = .ok valid ↔ schema.Seals ∧ valid.declarations = schema.toDeclarations := by
  delta toValid
  rw [parse?_sdl h.query h.mutation h.types]
  by_cases hreadable : schema.declaredTypes.all (·.isReadable) = true
  · rw [if_pos hreadable, Option.bind_some]
    split
    · rename_i declarations hdeclarations
      obtain ⟨hdistinct, rfl⟩ := ofDocument?_document.mp hdeclarations
      split
      · rename_i hvalid
        constructor
        · intro heq
          obtain rfl := Except.ok.inj heq
          exact ⟨⟨List.all_eq_true.mp hreadable, hdistinct, hvalid⟩, rfl⟩
        · rintro ⟨-, heq⟩
          cases valid with
          | mk declarations _ => subst heq; rfl
      · rename_i hinvalid
        exact iff_of_false (fun heq => nomatch heq) fun hseals => hinvalid hseals.1.valid
    · rename_i hnone
      refine iff_of_false (fun heq => nomatch heq) fun hseals => ?_
      cases hnone.symm.trans (ofDocument?_document.mpr ⟨hseals.1.distinct, rfl⟩)
  · rw [if_neg hreadable]
    refine iff_of_false (fun heq => nomatch heq) fun hseals => hreadable ?_
    exact List.all_eq_true.mpr hseals.1.readable

/-- A schema that is valid as a document is made valid, with its own types. -/
theorem exists_toValid_of_seals (h : schema.IsWritable) (hseals : schema.Seals) :
    ∃ valid, schema.toValid = .ok valid ∧ valid.declarations = schema.toDeclarations :=
  ⟨⟨schema.toDeclarations, hseals.valid⟩, (toValid_eq_ok_iff h).mpr ⟨hseals, rfl⟩, rfl⟩

/-- A schema can be made valid exactly when it is valid as a document. -/
theorem exists_toValid_iff (h : schema.IsWritable) :
    (∃ valid, schema.toValid = .ok valid) ↔ schema.Seals := by
  constructor
  · rintro ⟨valid, hvalid⟩
    exact ((toValid_eq_ok_iff h).mp hvalid).1
  · intro hseals
    obtain ⟨valid, hvalid, -⟩ := exists_toValid_of_seals h hseals
    exact ⟨valid, hvalid⟩

/-! ### Declared types -/

/-- The types that schema text declares beside the roots: all but the built-in scalars. -/
def ownTypes (schema : Schema) : List TypeDef :=
  schema.types.values.filter fun type => !(type.isScalar && isStandardScalar type.name)

/-- Schema text declares types of the schema and the roots. -/
theorem mem_declaredTypes_iff {type : TypeDef} :
    type ∈ schema.declaredTypes ↔ type ∈ schema.ownTypes ∨ type = schema.query ∨
      schema.hasMutations = true ∧ type = schema.mutation := by
  rw [declaredTypes, ← ownTypes, List.mem_append, List.mem_cons]
  cases schema.hasMutations with
  | false => simp
  | true => simp

/-- The root of queries is declared. -/
theorem query_mem_declaredTypes : schema.query ∈ schema.declaredTypes :=
  mem_declaredTypes_iff.mpr (Or.inr (Or.inl rfl))

/-- The root of mutations is declared if there are any. -/
theorem mutation_mem_declaredTypes (h : schema.hasMutations = true) :
    schema.mutation ∈ schema.declaredTypes :=
  mem_declaredTypes_iff.mpr (Or.inr (Or.inr ⟨h, rfl⟩))

/-- A schema whose root of mutations has a field has mutations. -/
theorem hasMutations_of_mem {field : FieldDef} (h : field ∈ schema.mutation.fields) :
    schema.hasMutations = true := by
  rw [hasMutations, List.isEmpty_eq_false_iff.mpr (List.ne_nil_of_mem h), Bool.not_false]

/-- A type with fields is declared. -/
theorem mem_declaredTypes_of_mem_values {type : TypeDef} (h : type ∈ schema.types.values)
    (hscalar : type.isScalar = false) : type ∈ schema.declaredTypes := by
  refine mem_declaredTypes_iff.mpr (Or.inl (List.mem_filter.mpr ⟨h, ?_⟩))
  rw [hscalar, Bool.false_and, Bool.not_false]

/-- A type with fields that is found under a name is declared. -/
theorem mem_declaredTypes_of_get? {name : String} {type : TypeDef}
    (hget : schema.get? name = some type) (hscalar : type.isScalar = false) :
    type ∈ schema.declaredTypes :=
  mem_declaredTypes_of_mem_values (mem_values_of_get? hget) hscalar

/-- What schema text declares is a type of the schema or a root. -/
theorem mem_values_or_root_of_mem_declaredTypes {type : TypeDef}
    (h : type ∈ schema.declaredTypes) :
    type ∈ schema.types.values ∨ type = schema.query ∨ type = schema.mutation := by
  rcases mem_declaredTypes_iff.mp h with hown | hquery | ⟨-, hmutation⟩
  · exact Or.inl (List.mem_filter.mp hown).1
  · exact Or.inr (Or.inl hquery)
  · exact Or.inr (Or.inr hmutation)

/-- **When names are distinct in schema text**: no type has the name of a root, and the roots have
two names. It is assumed that names do not become equal by the way in which they are written. -/
theorem nodup_nameInSdl_iff (hkeyed : schema.Keyed)
    (hinjective : ∀ first ∈ schema.declaredTypes, ∀ second ∈ schema.declaredTypes,
      nameInSdl first.name = nameInSdl second.name → first.name = second.name) :
    (schema.declaredTypes.map fun type => nameInSdl type.name).Nodup ↔
      (∀ type ∈ schema.ownTypes, type.name ≠ schema.query.name ∧
        (schema.hasMutations = true → type.name ≠ schema.mutation.name)) ∧
      (schema.hasMutations = true → schema.query.name ≠ schema.mutation.name) := by
  have hwritten : (schema.declaredTypes.map fun type => nameInSdl type.name) =
      (schema.declaredTypes.map (·.name)).map nameInSdl := by
    rw [List.map_map]
    rfl
  have hnames : (schema.declaredTypes.map fun type => nameInSdl type.name).Nodup ↔
      (schema.declaredTypes.map (·.name)).Nodup := by
    rw [hwritten]
    refine ⟨List.Nodup.of_map _, fun h => h.map_on ?_⟩
    rw [List.forall_mem_map]
    intro first hfirst
    rw [List.forall_mem_map]
    exact hinjective first hfirst
  have hown : (schema.ownTypes.map (·.name)).Nodup :=
    hkeyed.nodup_name.sublist (List.filter_sublist.map _)
  rw [hnames, declaredTypes, ← ownTypes, List.map_append, List.nodup_append, List.forall_mem_map]
  cases schema.hasMutations with
  | false => simp [hown]
  | true => simp [hown, and_comm]

/-- Types with one name in the text have one name, unless a type has the name that a marker has
there. -/
theorem IsWritable.name_eq_of_nameInSdl_eq (h : schema.IsWritable)
    (hunmarked : ∀ type ∈ schema.declaredTypes, type.name ∉ mutationResults.map nameInSdl)
    {first second : TypeDef} (hfirst : first ∈ schema.declaredTypes)
    (hsecond : second ∈ schema.declaredTypes)
    (heq : nameInSdl first.name = nameInSdl second.name) : first.name = second.name := by
  rcases eq_or_of_nameInSdl_eq (h.types first hfirst).name (h.types second hsecond).name heq with
    hsame | ⟨hmarker, hname⟩ | ⟨hmarker, hname⟩
  · exact hsame
  · exact absurd (hname ▸ List.mem_map_of_mem hmarker) (hunmarked second hsecond)
  · exact absurd (hname ▸ List.mem_map_of_mem hmarker) (hunmarked first hfirst)

/-- **When names are distinct in the text of a schema with markers**: no type has the name that a
marker has there, none has the name of a root, and the roots have two names. -/
theorem IsWritable.nodup_nameInSdl_iff (h : schema.IsWritable) (hkeyed : schema.Keyed)
    (hmarkers : ∀ name ∈ mutationResults, .givenScalar name ∈ schema.declaredTypes) :
    (schema.declaredTypes.map fun type => nameInSdl type.name).Nodup ↔
      (∀ type ∈ schema.declaredTypes, type.name ∉ mutationResults.map nameInSdl) ∧
      (∀ type ∈ schema.ownTypes, type.name ≠ schema.query.name ∧
        (schema.hasMutations = true → type.name ≠ schema.mutation.name)) ∧
      (schema.hasMutations = true → schema.query.name ≠ schema.mutation.name) := by
  constructor
  · intro hnodup
    have hunmarked : ∀ type ∈ schema.declaredTypes,
        type.name ∉ mutationResults.map nameInSdl := by
      intro type htype hmem
      obtain ⟨marker, hmarker, hname⟩ := List.mem_map.mp hmem
      have hwritten : isName type.name = true :=
        hname ▸ isName_nameInSdl_of_mem_mutationResults hmarker
      -- The marker itself has this name in the text, and its own name is none.
      have hsame : type = .givenScalar marker :=
        List.inj_on_of_nodup_map hnodup htype (hmarkers marker hmarker)
          ((nameInSdl_of_isName hwritten).trans hname.symm)
      rw [hsame] at hwritten
      exact Bool.false_ne_true ((isName_of_mem_mutationResults hmarker).symm.trans hwritten)
    exact ⟨hunmarked, (Schema.nodup_nameInSdl_iff hkeyed fun _ hfirst _ hsecond =>
      h.name_eq_of_nameInSdl_eq hunmarked hfirst hsecond).mp hnodup⟩
  · rintro ⟨hunmarked, hnames⟩
    exact (Schema.nodup_nameInSdl_iff hkeyed fun _ hfirst _ hsecond =>
      h.name_eq_of_nameInSdl_eq hunmarked hfirst hsecond).mpr hnames

/-! ### What names stand for -/

/-- **A type of the schema is found** under the name that it has in schema text. -/
theorem IsDistinct.type?_eq (h : schema.IsDistinct) {type : TypeDef}
    (htype : type ∈ schema.declaredTypes) :
    schema.toDeclarations.type? (nameInSdl type.name) = some type.toDecl := by
  have hnames : (schema.declaredTypes.map (·.toDecl)).map (·.name) =
      schema.declaredTypes.map fun type => nameInSdl type.name := by
    rw [List.map_map]
    rfl
  have hfind : (schema.declaredTypes.map (·.toDecl)).find? (·.name == nameInSdl type.name) =
      some type.toDecl :=
    find?_eq_some_of_nodup (hnames ▸ h.nodup) (List.mem_map_of_mem htype)
  rw [Declarations.type?, List.find?_append, toDeclarations]
  dsimp only
  rw [hfind, Option.some_or]

/-- What is found under a name is a type of the schema, or a type of every schema. -/
theorem exists_of_type?_eq_some {name : String} {declaration : TypeDecl}
    (h : schema.toDeclarations.type? name = some declaration) :
    (∃ type ∈ schema.declaredTypes, nameInSdl type.name = name ∧ declaration = type.toDecl) ∨
      (declaration ∈ BuiltIn.types ∧ declaration.name = name) := by
  rw [Declarations.type?] at h
  have hname : declaration.name = name := by simpa using List.find?_some h
  rcases List.mem_append.mp (List.mem_of_find?_eq_some h) with hown | hbuiltin
  · obtain ⟨type, htype, rfl⟩ := List.mem_map.mp hown
    exact Or.inl ⟨type, htype, hname, rfl⟩
  · exact Or.inr ⟨hbuiltin, hname⟩

/-- **What a name stands for** is a type of the schema or a type of every schema. -/
theorem IsDistinct.bodySatisfies_iff (h : schema.IsDistinct) {p : TypeBody → Bool}
    {name : String} :
    schema.toDeclarations.bodySatisfies p name = true ↔
      (∃ type ∈ schema.declaredTypes, nameInSdl type.name = name ∧ p type.toBody = true) ∨
        ∃ type ∈ BuiltIn.types, type.name = name ∧ p type.body = true := by
  have hbuiltins : (BuiltIn.types.map (·.name)).Nodup := by decide
  rw [Declarations.bodySatisfies, Option.any_eq_true]
  constructor
  · rintro ⟨declaration, hfound, hp⟩
    rcases exists_of_type?_eq_some hfound with ⟨type, htype, hname, rfl⟩ | ⟨hbuiltin, hname⟩
    · exact Or.inl ⟨type, htype, hname, hp⟩
    · exact Or.inr ⟨declaration, hbuiltin, hname, hp⟩
  · rintro (⟨type, htype, rfl, hp⟩ | ⟨type, htype, rfl, hp⟩)
    · exact ⟨type.toDecl, h.type?_eq htype, hp⟩
    · refine ⟨type, ?_, hp⟩
      -- No type of the schema has the name of one of every schema.
      have hnone : (schema.declaredTypes.map (·.toDecl)).find? (·.name == type.name) = none := by
        rw [List.find?_eq_none]
        intro declaration hdeclaration heq
        obtain ⟨own, hown, rfl⟩ := List.mem_map.mp hdeclaration
        have hname : nameInSdl own.name = type.name := beq_iff_eq.mp heq
        have hbuiltin := h.builtin own hown
        rw [hname, BuiltIn.isTypeName, List.any_eq_false] at hbuiltin
        exact hbuiltin type htype (beq_self_eq_true _)
      rw [Declarations.type?, List.find?_append, toDeclarations]
      dsimp only
      rw [hnone, Option.none_or]
      exact find?_eq_some_of_nodup hbuiltins htype

/-! ### What is valid -/

/-- Values of the type `name` can be answered. -/
def Answers (schema : Schema) (name : String) : Prop :=
  schema.toDeclarations.bodySatisfies TypeBody.isOutput (nameInSdl name) = true

/-- Values of the type `name` can be passed. -/
def Takes (schema : Schema) (name : String) : Prop :=
  schema.toDeclarations.bodySatisfies TypeBody.isInput (nameInSdl name) = true

/-- The field may stand in an object type. -/
structure AllowsField (schema : Schema) (field : FieldDef) : Prop where
  /-- Its name is not reserved. -/
  free : ¬IsReserved field.name
  /-- It is answered. -/
  answers : schema.Answers field.type.leafName
  /-- Its arguments are passed, under names that are not reserved. -/
  takes : ∀ arg ∈ field.arguments, ¬IsReserved arg.name ∧ schema.Takes arg.type.leafName
  /-- No two arguments have one name. -/
  nodup : (field.arguments.map (·.name)).Nodup

/-- The field may stand in an input type. -/
structure AllowsInput (schema : Schema) (field : FieldDef) : Prop where
  /-- Its name is not reserved. -/
  free : ¬IsReserved field.name
  /-- It is passed. -/
  takes : schema.Takes field.type.leafName

/-- The type may stand in the schema. -/
structure AllowsType (schema : Schema) (type : TypeDef) : Prop where
  /-- Its name is not reserved. -/
  free : ¬IsReserved (nameInSdl type.name)
  /-- It has fields, unless it is a scalar. -/
  nonempty : type.kind ≠ .scalar → type.fields ≠ []
  /-- The fields of an object type. -/
  fields : type.kind = .object → ∀ field ∈ type.fields, schema.AllowsField field
  /-- The fields of an input type. -/
  inputs : type.kind = .input → ∀ field ∈ type.fields, schema.AllowsInput field

/-- The types of schema text, each with those that it requires. -/
def requirements (schema : Schema) : References :=
  schema.declaredTypes.map fun type =>
    (nameInSdl type.name, Declarations.requiredTypes type.toDecl)

/-- A type refers to those that it requires. -/
theorem leads_requirements_iff {first second : String} :
    References.Leads schema.requirements first second ↔
      ∃ type ∈ schema.declaredTypes, type.kind = .input ∧ nameInSdl type.name = first ∧
        ∃ field ∈ type.fields, ∃ leaf, field.type = .named leaf false ∧
          nameInSdl leaf = second := by
  simp only [References.Leads, requirements, List.mem_map, exists_exists_and_eq_and,
    TypeDef.mem_requiredTypes_toDecl]
  exact exists_congr fun type => and_congr_right fun _ => and_left_comm

/-- What can be answered is a type that is no input type. -/
theorem answers_iff (h : schema.IsDistinct) {name : String} :
    schema.Answers name ↔
      (∃ type ∈ schema.declaredTypes, nameInSdl type.name = nameInSdl name ∧ type.kind ≠ .input) ∨
        ∃ type ∈ BuiltIn.types, type.name = nameInSdl name ∧ type.body.isOutput = true := by
  simp only [Answers, h.bodySatisfies_iff, TypeDef.isOutput_toBody]

/-- What can be passed is a type that is no object type. -/
theorem takes_iff (h : schema.IsDistinct) {name : String} :
    schema.Takes name ↔
      (∃ type ∈ schema.declaredTypes, nameInSdl type.name = nameInSdl name ∧ type.kind ≠ .object) ∨
        ∃ type ∈ BuiltIn.types, type.name = nameInSdl name ∧ type.body.isInput = true := by
  simp only [Takes, h.bodySatisfies_iff, TypeDef.isInput_toBody]

/-- A declared type can be answered unless it is an input type. -/
theorem IsDistinct.answers_name_iff (h : schema.IsDistinct) {type : TypeDef}
    (htype : type ∈ schema.declaredTypes) : schema.Answers type.name ↔ type.kind ≠ .input := by
  rw [Answers, Declarations.bodySatisfies, h.type?_eq htype, Option.any_some]
  exact type.isOutput_toBody

/-- A declared type can be passed unless it is an object type. -/
theorem IsDistinct.takes_name_iff (h : schema.IsDistinct) {type : TypeDef}
    (htype : type ∈ schema.declaredTypes) : schema.Takes type.name ↔ type.kind ≠ .object := by
  rw [Takes, Declarations.bodySatisfies, h.type?_eq htype, Option.any_some]
  exact type.isInput_toBody

/-- The scalars of every schema can be answered and passed. -/
theorem IsDistinct.answers_and_takes_standard (h : schema.IsDistinct) {name : String}
    (hname : name ∈ standardScalars) : schema.Answers name ∧ schema.Takes name := by
  have hwritten : ∀ name ∈ standardScalars, nameInSdl name = name := by decide
  have hbuiltin : ({ name := name, body := .scalar } : TypeDecl) ∈ BuiltIn.types :=
    List.mem_append_right _ (List.mem_map_of_mem hname)
  exact ⟨(answers_iff h).mpr (Or.inr ⟨_, hbuiltin, (hwritten name hname).symm, rfl⟩),
    (takes_iff h).mpr (Or.inr ⟨_, hbuiltin, (hwritten name hname).symm, rfl⟩)⟩

theorem isFreeName_iff {name : String} :
    Declarations.isFreeName name = true ↔ ¬IsReserved name := by
  rw [Declarations.isFreeName, Bool.not_eq_true', ← Bool.not_eq_true, List.isPrefixOf_iff_prefix]
  rfl

/-- What a field or an argument is checked for as a declaration of an input. -/
theorem isValidInput_iff {declaration : InputDecl} {name : String} {type : TypeRef}
    (hname : declaration.name = name) (htype : declaration.type = type.withNameInSdl) :
    schema.toDeclarations.isValidInput declaration = true ↔
      ¬IsReserved name ∧ schema.Takes type.leafName := by
  rw [Declarations.isValidInput, Bool.and_eq_true, hname, htype, Lexer.leafName_withNameInSdl,
    isFreeName_iff, Takes]

/-- What a field of an object type is checked for. -/
theorem isValidField_iff {field : FieldDef} :
    schema.toDeclarations.isValidField field.toDecl = true ↔ schema.AllowsField field := by
  have harguments : schema.toDeclarations.isValidField field.toDecl = true ↔
      ((¬IsReserved field.name ∧ schema.Answers field.type.leafName) ∧
        ∀ arg ∈ field.arguments, ¬IsReserved arg.name ∧ schema.Takes arg.type.leafName) ∧
      (field.arguments.map (·.name)).Nodup := by
    rw [Declarations.isValidField, FieldDef.toDecl]
    simp only [Bool.and_eq_true, isFreeName_iff, Lexer.leafName_withNameInSdl, List.all_map,
      List.all_eq_true, Function.comp_def, List.map_map, allDistinct, decide_eq_true_iff, Answers]
    refine and_congr (and_congr_right fun _ => forall₂_congr fun arg _ => ?_) Iff.rfl
    exact isValidInput_iff rfl rfl
  rw [harguments]
  exact ⟨fun h => ⟨h.1.1.1, h.1.1.2, h.1.2, h.2⟩,
    fun h => ⟨⟨⟨h.free, h.answers⟩, h.takes⟩, h.nodup⟩⟩

/-- What a type is checked for. -/
theorem isValidType_iff {type : TypeDef} :
    schema.toDeclarations.isValidType type.toDecl = true ↔ schema.AllowsType type := by
  have hfields : (type.fields.map (·.toDecl)).all schema.toDeclarations.isValidField = true ↔
      ∀ field ∈ type.fields, schema.AllowsField field := by
    rw [List.all_map, List.all_eq_true]
    exact forall₂_congr fun field _ => isValidField_iff
  have hinputs : (type.fields.map (·.toInputDecl)).all schema.toDeclarations.isValidInput = true ↔
      ∀ field ∈ type.fields, schema.AllowsInput field := by
    rw [List.all_map, List.all_eq_true]
    refine forall₂_congr fun field _ => (isValidInput_iff rfl rfl).trans ?_
    exact ⟨fun h => ⟨h.1, h.2⟩, fun h => ⟨h.free, h.takes⟩⟩
  have hnonempty : (!type.fields.isEmpty) = true ↔ type.fields ≠ [] := by
    rw [Bool.not_eq_true', ← Bool.not_eq_true, List.isEmpty_iff]
  rw [Declarations.isValidType, Bool.and_eq_true, TypeDef.toDecl, isFreeName_iff]
  dsimp only
  rw [TypeDef.toBody]
  cases hkind : type.kind with
  | scalar =>
      refine ⟨fun h => ⟨h.1, ?_, ?_, ?_⟩, fun h => ⟨h.free, rfl⟩⟩
      all_goals simp [hkind]
  | object =>
      simp only [List.isEmpty_nil, Bool.true_and, List.isEmpty_map, Bool.and_eq_true, hnonempty,
        hfields]
      exact ⟨fun h => ⟨h.1, fun _ => h.2.1, fun _ => h.2.2, by simp [hkind]⟩,
        fun h => ⟨h.free, h.nonempty (by simp [hkind]), h.fields hkind⟩⟩
  | input =>
      simp only [List.isEmpty_map, Bool.and_eq_true, hnonempty, hinputs]
      exact ⟨fun h => ⟨h.1, fun _ => h.2.1, by simp [hkind], fun _ => h.2.2⟩,
        fun h => ⟨h.free, h.nonempty (by simp [hkind]), h.inputs hkind⟩⟩

/-- The roots are declared, where the text declares them. -/
theorem root_mem_declaredTypes {root : RootKind × String} (h : root ∈ schema.toRoots) :
    ∃ type ∈ schema.declaredTypes, type.name = root.2 ∧
      (type = schema.query ∨ schema.hasMutations = true ∧ type = schema.mutation) := by
  rw [toRoots] at h
  rcases List.mem_cons.mp h with rfl | hmutation
  · exact ⟨_, query_mem_declaredTypes, rfl, Or.inl rfl⟩
  · split at hmutation
    · rename_i hmutations
      obtain rfl := List.mem_singleton.mp hmutation
      exact ⟨_, mutation_mem_declaredTypes hmutations, rfl, Or.inr ⟨hmutations, rfl⟩⟩
    · exact absurd hmutation List.not_mem_nil

/-- The roots are valid when they are object types. -/
theorem hasValidRoots_iff (h : schema.IsWritable) (hdistinct : schema.IsDistinct) :
    schema.toDeclarations.hasValidRoots = true ↔
      schema.query.kind = .object ∧
        (schema.hasMutations = true → schema.mutation.kind = .object) := by
  have hroot : ∀ type ∈ schema.declaredTypes, isName type.name = true →
      (schema.toDeclarations.bodySatisfies TypeBody.isObject type.name = true ↔
        type.kind = .object) := by
    intro type htype hname
    have hfound := hdistinct.type?_eq htype
    rw [nameInSdl_of_isName hname] at hfound
    rw [Declarations.bodySatisfies, hfound, Option.any_some]
    exact type.isObject_toBody
  have hquery := hroot schema.query query_mem_declaredTypes h.query
  have hsome : (schema.toDeclarations.root? .query).isSome = true := rfl
  rw [Declarations.hasValidRoots, hsome, Bool.true_and, toDeclarations]
  dsimp only
  rw [List.all_eq_true]
  constructor
  · intro hall
    refine ⟨hquery.mp (hall (.query, schema.query.name) List.mem_cons_self), fun hmutations => ?_⟩
    have hmem : (RootKind.mutation, schema.mutation.name) ∈ schema.toRoots := by
      rw [toRoots, if_pos hmutations]
      exact List.mem_cons_of_mem _ List.mem_cons_self
    exact (hroot _ (mutation_mem_declaredTypes hmutations) h.mutation).mp (hall _ hmem)
  · rintro ⟨hqueryKind, hmutationKind⟩ root hmem
    obtain ⟨type, htype, hname, rfl | ⟨hmutations, rfl⟩⟩ := root_mem_declaredTypes hmem
    · rw [← hname]
      exact hquery.mpr hqueryKind
    · rw [← hname]
      exact (hroot _ htype h.mutation).mpr (hmutationKind hmutations)

/-- **What a schema is checked for**: its roots, its types, and that none of these requires
itself. -/
theorem isValid_iff (h : schema.IsWritable) (hdistinct : schema.IsDistinct) :
    schema.toDeclarations.isValid = true ↔
      (schema.query.kind = .object ∧
        (schema.hasMutations = true → schema.mutation.kind = .object)) ∧
      (∀ type ∈ schema.declaredTypes, schema.AllowsType type) ∧
      ∀ name, ¬Relation.TransGen (References.Leads schema.requirements) name name := by
  have htypes : schema.toDeclarations.types.all schema.toDeclarations.isValidType = true ↔
      ∀ type ∈ schema.declaredTypes, schema.AllowsType type := by
    rw [toDeclarations, List.all_map, List.all_eq_true]
    exact forall₂_congr fun type _ => isValidType_iff
  have hrequired : schema.toDeclarations.types.map (fun type =>
      (type.name, Declarations.requiredTypes type)) = schema.requirements := by
    rw [toDeclarations, List.map_map]
    rfl
  rw [Declarations.isValid, Bool.and_eq_true, Bool.and_eq_true, hasValidRoots_iff h hdistinct,
    htypes, hrequired, References.isGrounded_iff, and_assoc]

namespace Seals

variable (h : schema.Seals) (hwritable : schema.IsWritable)

include h hwritable

/-- The roots are object types. -/
theorem kind_roots : schema.query.kind = .object ∧
    (schema.hasMutations = true → schema.mutation.kind = .object) :=
  ((isValid_iff hwritable h.distinct).mp h.valid).1

/-- What schema text declares is allowed there. -/
theorem allowsType {type : TypeDef} (htype : type ∈ schema.declaredTypes) :
    schema.AllowsType type :=
  ((isValid_iff hwritable h.distinct).mp h.valid).2.1 type htype

/-- No type requires itself. -/
theorem not_leads (name : String) :
    ¬Relation.TransGen (References.Leads schema.requirements) name name :=
  ((isValid_iff hwritable h.distinct).mp h.valid).2.2 name

end Seals

/-- The text of the schema can declare mutations: their root can be declared beside the root of
queries. -/
structure AdmitsMutations (schema : Schema) : Prop where
  /-- The root is an object type. -/
  kind : schema.mutation.kind = .object
  /-- It is another one than the root of queries. -/
  name : schema.query.name ≠ schema.mutation.name
  /-- It is none of the types of every schema. -/
  builtin : BuiltIn.isTypeName schema.mutation.name = false
  /-- Its name is not reserved. -/
  free : ¬IsReserved schema.mutation.name
  /-- Its documentation can be read. -/
  plain : isPlainDescription schema.mutation.description = true

/-- The text of a valid schema that has mutations declares them. -/
theorem Seals.admitsMutations (h : schema.Seals) (hwritable : schema.IsWritable)
    (hmutations : schema.hasMutations = true) : schema.AdmitsMutations := by
  have hdeclared := mutation_mem_declaredTypes hmutations
  have hname := nameInSdl_of_isName hwritable.mutation
  have hnodup := h.distinct.nodup
  rw [declaredTypes, if_pos hmutations, List.map_append, List.nodup_append] at hnodup
  exact
    { kind := (h.kind_roots hwritable).2 hmutations
      name := by simpa [hname, nameInSdl_of_isName hwritable.query] using hnodup.2.1
      builtin := hname ▸ h.distinct.builtin _ hdeclared
      free := hname ▸ (h.allowsType hwritable hdeclared).free
      plain := (TypeDef.isReadable_iff.mp (h.readable _ hdeclared)).1 }

end Schema

end ClientSdk
