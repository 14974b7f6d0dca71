import ClientSdk.Proofs.Augmentation.Names
import ClientSdk.Proofs.Build.Agreement
import ClientSdk.Proofs.Document.Operations
import ClientSdk.Proofs.Emit.Spelling
import ClientSdk.Proofs.Generation.Trace

/-!
# Rendering What a Run Gives

A run gives models of operations that have been read against a schema that has been prepared, and
all names in them come from documents. Their files are rendered, or rendering fails for a reason
that it reports, unless the name of a class has no identifier: then the code cannot be written at
all. Which names these are can be told from their characters.

## Main definitions

* `IsModelOf`: the model of an operation that has been read against a schema.

## Main results

* `Prepares.emittable`, `Prepares.goesByNames`: what the code of an operation relies on.
* `failsOnly_outputFiles_of_models`: the names for want of which there are no files.
* `identifiers_of_rendering`: the names that have identifiers, and what this means for files.
-/

namespace ClientSdk

open Emit

/-! ### Prepared schemas -/

namespace Prepares

variable {source : SourceText} {loaded : Schema} {result : Augmentation} {valid : ValidSchema}
  (h : Prepares source loaded result valid)

include h

/-- The types of a prepared schema go by names, or are called like results. -/
theorem goesBy {type : TypeDef} (htype : type ∈ result.schema.types.values) :
    type.GoesBy IsTypeName := by
  have hloaded := Schema.loaded_of_ofText h.reads
  obtain ⟨added, types, happended⟩ :=
    Augment.exists_appended hloaded.keyed hloaded.notMem_keys h.augments
  exact happended.goesBy hloaded (List.mem_append_right [_, _] htype)

/-- The scalars of a prepared schema are those of every schema and the results. -/
theorem scalar_iff {type : TypeDef} (htype : type ∈ result.schema.types.values) :
    type.isScalar = true ↔ type.name ∈ standardScalars ++ mutationResults := by
  have hloaded := Schema.loaded_of_ofText h.reads
  obtain ⟨added, types, happended⟩ :=
    Augment.exists_appended hloaded.keyed hloaded.notMem_keys h.augments
  have hget := (happended.keyed hloaded.keyed).get?_of_mem_values htype
  constructor
  · intro hscalar
    obtain ⟨old, hold, rfl⟩ | ⟨name, hmarker, rfl⟩ | ⟨object, -, rfl⟩ :=
      happended.mem_values hloaded.keyed htype
    · rcases hloaded.values old hold with ⟨hstandard, -⟩ | ⟨hdeclared, -⟩
      · exact List.mem_append_left _ hstandard
      · exact absurd (beq_iff_eq.mp hscalar) hdeclared.kind
    · exact List.mem_append_right _ hmarker
    · cases hscalar
  · intro hname
    rcases List.mem_append.mp hname with hstandard | hmarker
    · have hgiven := happended.get?_eq (hloaded.standard type.name hstandard)
      rw [Option.some.inj (hget.symm.trans hgiven)]
      rfl
    · rw [Option.some.inj (hget.symm.trans (happended.get?_marker hmarker))]
      rfl

/-- **A type of objects goes by a name** that is not that of a scalar. -/
theorem isName_of_isScalar_eq_false {type : TypeDef} (htype : type ∈ result.schema.types.values)
    (hscalar : type.isScalar = false) :
    Token.isName type.name = true ∧ type.name ∉ standardScalars := by
  have hother := mt (h.scalar_iff htype).mpr (Bool.eq_false_iff.mp hscalar)
  rw [List.mem_append, not_or] at hother
  exact ⟨(h.goesBy htype).name.resolve_right hother.2, hother.1⟩

/-- **The code of operations can rely on a prepared schema.** -/
theorem emittable : result.schema.Emittable := by
  obtain ⟨hoperable, -⟩ := operable_of_toValid h.reads h.augments h.validates
  refine ⟨hoperable.keyed, fun type htype hscalar => ?_, fun type htype hscalar => ?_,
    fun type htype hscalar => (h.scalar_iff htype).mp hscalar⟩
  · obtain ⟨hname, hstandard⟩ := h.isName_of_isScalar_eq_false htype hscalar
    refine ⟨?_, ?_⟩
    · rw [isStandardScalar, ← Bool.not_eq_true, List.contains_iff_mem]
      exact hstandard
    · rw [isReservedName, afterReservedMark?_of_isName hname]
      rfl
  · exact Build.distinctFields_of_get? hoperable (hoperable.keyed.get?_of_mem_values htype) hscalar

/-- **An operation that has been read against a prepared schema goes by names**, and so does the
schema. -/
theorem goesByNames {operation : Operation} (hnamed : operation.IsNamed) :
    GoesByNames result.schema operation :=
  ⟨hnamed.name, hnamed.vars, hnamed.keys,
    fun _ htype hscalar => (h.isName_of_isScalar_eq_false htype hscalar).1,
    fun _ htype _ field hfield => ((h.goesBy htype).fields field hfield).name⟩

end Prepares

/-! ### Files -/

/-- The model is that of an operation that has been read against the schema. -/
def IsModelOf (schema : Schema) (valid : ValidSchema) (model : ClassModel) : Prop :=
  ∃ (document : SourceText) (operations : List Operation) (package : String),
    operationsOfText valid document.text document.path = .ok operations ∧
      ∃ operation ∈ operations, ClassModel.ofOperation schema package operation = .ok model

/-- Where there are files, every model has code. -/
theorem exists_emitOperation_of_operationFiles {taken : List String} {models : List ClassModel}
    {files : List OutputFile} (h : operationFiles taken models = .ok files) :
    ∀ model ∈ models, ∃ file, emitOperation model = .ok file := by
  induction models generalizing taken files with
  | nil => exact fun _ hmem => absurd hmem List.not_mem_nil
  | cons model models ih =>
      rw [operationFiles, bind_eq_ok_iff] at h
      obtain ⟨name, -, h⟩ := h
      split at h
      · cases h
      rw [bind_eq_ok_iff] at h
      obtain ⟨file, hfile, h⟩ := h
      simp only [bind_eq_ok_iff] at h
      obtain ⟨_, -, _, hrest, -⟩ := h
      exact List.forall_mem_cons.mpr ⟨⟨file, hfile⟩, ih hrest⟩

section Files

variable {source : SourceText} {loaded : Schema} {result : Augmentation} {valid : ValidSchema}
  (h : Prepares source loaded result valid) {models : List ClassModel}
  (hmodels : ∀ model ∈ models, IsModelOf result.schema valid model)

include h hmodels

/-- Each of the models is that of an operation that goes by names. -/
theorem exists_goesByNames_of_isModelOf {model : ClassModel} (hmem : model ∈ models) :
    ∃ (operation : Operation) (package : String), GoesByNames result.schema operation ∧
      ClassModel.ofOperation result.schema package operation = .ok model := by
  obtain ⟨_, _, package, hread, operation, hoperation, hmodel⟩ := hmodels model hmem
  exact ⟨operation, package, h.goesByNames (isNamed_of_operationsOfText hread operation hoperation),
    hmodel⟩

/-- **There are no files for want of an identifier** only if a class has none. -/
theorem failsOnly_outputFiles_of_models :
    FailsOnly (IsUnspelled (models.flatMap (·.typeNames))) (outputFiles models) := by
  refine failsOnly_outputFiles (fun _ _ => isUnspelled_of_ne fun _ => nofun)
    (isUnspelled_of_ne fun _ => nofun) (fun model hmem => ?_) (fun model hmem => ?_)
  · obtain ⟨operation, package, hnames, hmodel⟩ := exists_goesByNames_of_isModelOf h hmodels hmem
    rw [Build.operationName_of_ofOperation hmodel]
    exact failsOnly_ofValueName_of_isName hnames.name
  · obtain ⟨operation, package, hnames, hmodel⟩ := exists_goesByNames_of_isModelOf h hmodels hmem
    intro e herror text heq
    obtain ⟨name, hname, hspelled⟩ :=
      failsOnly_unspelled h.emittable hnames hmodel e herror text heq
    exact ⟨name, List.mem_flatMap.mpr ⟨model, hmem, hname⟩, hspelled⟩

/-- **Where there are files, every class has an identifier.** -/
theorem isLetterLed_of_outputFiles {files : List OutputFile}
    (hfiles : outputFiles models = .ok files) {name : String}
    (hname : name ∈ models.flatMap (·.typeNames)) : Text.IsLetterLed name := by
  obtain ⟨model, hmem, hname⟩ := List.mem_flatMap.mp hname
  obtain ⟨operation, package, hnames, hmodel⟩ := exists_goesByNames_of_isModelOf h hmodels hmem
  obtain ⟨own, hown, -⟩ := bind_eq_ok_iff.mp hfiles
  obtain ⟨file, hemit⟩ := exists_emitOperation_of_operationFiles hown model hmem
  exact isLetterLed_of_emitOperation hnames hmodel hemit hname

end Files

/-- **The identifiers of rendering.** Operations have been read against a schema that has been read,
augmented and validated, and their models have been made. Each name becomes the identifier of a
value, and it becomes that of a type exactly when its first character that is no underscore is a
letter. So the files of the models are not rendered for want of an identifier only if a class has
none, and where they are rendered every class has one. -/
theorem identifiers_of_rendering {source : SourceText} {loaded : Schema} {result : Augmentation}
    {valid : ValidSchema} (hprepares : Prepares source loaded result valid)
    {models : List ClassModel} (hmodels : ∀ model ∈ models, IsModelOf result.schema valid model) :
    (∀ name, Token.isName name = true →
      (∃ ident, Ident.ofValueName name = .ok ident) ∧
        ((∃ ident, Ident.ofTypeName name = .ok ident) ↔ Text.IsLetterLed name)) ∧
    (∀ text, outputFiles models = .error (.notAnIdentifier text) →
      ∃ name ∈ models.flatMap (·.typeNames),
        ¬Text.IsLetterLed name ∧ text = Text.pascalCase name) ∧
    ∀ files, outputFiles models = .ok files →
      ∀ name ∈ models.flatMap (·.typeNames), Text.IsLetterLed name := by
  refine ⟨fun name hname => ?_, fun text herror => ?_, fun files hfiles name hname => ?_⟩
  · exact ⟨Ident.exists_ofValueName hname, Ident.exists_ofTypeName_iff hname⟩
  · exact failsOnly_outputFiles_of_models hprepares hmodels _ herror text rfl
  · exact isLetterLed_of_outputFiles hprepares hmodels hfiles hname

/-- The query of the version under a name. -/
def selectVersion (name : String) : Operation where
  name := name
  kind := .query
  selections := [.field "version" none []]

/-- The model of the query: a response with the version. -/
def versionModel (name : String) : ClassModel where
  package := "crate"
  operationName := name
  operationKind := .query
  responseClass := some
    { name := nameOfResponse name
      parameters := [{ name := "version", type := .named "Int" true, isLast := true }] }

/-- The schema is prepared. -/
theorem exists_prepares_versionText :
    ∃ valid, Prepares ⟨"version.graphql", versionText⟩ versionSchema
        { schema := Augment.addResultScalars versionSchema
          changes := mutationResults.map .markerType } valid ∧
      valid.declarations = (Augment.addResultScalars versionSchema).toDeclarations := by
  obtain ⟨valid, hvalid, hdeclarations⟩ := exists_toValid_versionSchema
  exact ⟨valid, ⟨ofText_versionText, augment_versionSchema, hvalid⟩, hdeclarations⟩

theorem ofOperation_selectVersion (name : String) :
    ClassModel.ofOperation (Augment.addResultScalars versionSchema) "crate" (selectVersion name) =
      .ok (versionModel name) := by rfl

/-- The query is read under its name. -/
theorem operationsOfText_selectVersion {text name : String} {valid : ValidSchema}
    (hdeclarations : valid.declarations = (Augment.addResultScalars versionSchema).toDeclarations)
    (hparse : Document.parse? text = some [.operation
      { kind := .query, name := some name, selections := [.field none "version" [] [] []] }])
    (path : String) : operationsOfText valid text path = .ok [selectVersion name] := by
  refine operationsOfText_eq_ok hparse ?_ rfl rfl
  rw [hdeclarations]
  rfl

/-- A query called `V` has a class whose name has an identifier, and so it has files. -/
theorem identifiers_of_rendering_version :
    ∃ files, outputFiles [versionModel "V"] = .ok files ∧
      (∃ ident, Ident.ofTypeName "VData" = .ok ident) ∧
      ∀ text, outputFiles [versionModel "V"] ≠ .error (.notAnIdentifier text) := by
  obtain ⟨valid, hprepares, hdeclarations⟩ := exists_prepares_versionText
  have hread := operationsOfText_selectVersion hdeclarations
    (show Document.parse? "query V { version }" = some [.operation
      { kind := .query, name := some "V", selections := [.field none "version" [] [] []] }] by cbv)
    "operations.graphql"
  have hmodels : ∀ model ∈ [versionModel "V"],
      IsModelOf (Augment.addResultScalars versionSchema) valid model :=
    List.forall_mem_singleton.mpr ⟨⟨"operations.graphql", "query V { version }"⟩, _, "crate",
      hread, _, List.mem_cons_self, ofOperation_selectVersion "V"⟩
  have hok : (outputFiles [versionModel "V"]).isOk = true := by decide +kernel
  obtain ⟨files, hrendered⟩ := exists_eq_ok_of_isOk hok
  obtain ⟨hidents, hmissing, hspelled⟩ := identifiers_of_rendering hprepares hmodels
  refine ⟨files, hrendered,
    (hidents "VData" (by decide)).2.mpr (hspelled files hrendered _ (by decide)),
    fun text herror => ?_⟩
  obtain ⟨name, hname, hletter, -⟩ := hmissing text herror
  exact hletter (hspelled files hrendered name hname)

/-- The class of the response of a query called `_1` has no identifier. -/
theorem emitOperation_versionModel :
    emitOperation (versionModel "_1") = .error (.notAnIdentifier "1Data") := by
  have hpackage : PackagePath.parse "crate" = .ok (plainPath [.plain "crate"]) := by
    decide +kernel
  have hident : Ident.ofTypeName "_1Data" = .error (.notAnIdentifier "1Data") := by
    decide +kernel
  refine bind_eq_error_iff.mpr (Or.inr ⟨_, hpackage, ?_⟩)
  refine bind_eq_error_iff.mpr (Or.inr ⟨{}, rfl, ?_⟩)
  exact bind_eq_error_iff.mpr (Or.inl (bind_eq_error_iff.mpr (Or.inl hident)))

/-- **A query that has no files**: it is called `_1`, and a run gives its model, but the class of
its response would be called `1Data`. -/
theorem rendering_lacks_identifier :
    Token.isName "_1" = true ∧ ∃ models,
      (classModels ⟨"version.graphql", versionText⟩
        [⟨"operations.graphql", "query _1 { version }"⟩] "crate").trace.1 = .ok models ∧
      outputFiles models = .error (.notAnIdentifier "1Data") := by
  obtain ⟨valid, hprepares, hdeclarations⟩ := exists_prepares_versionText
  have hread := operationsOfText_selectVersion hdeclarations
    (show Document.parse? "query _1 { version }" = some [.operation
      { kind := .query, name := some "_1", selections := [.field none "version" [] [] []] }] by cbv)
    "operations.graphql"
  have hbuilds : Builds (Augment.addResultScalars versionSchema) valid "crate"
      ⟨"operations.graphql", "query _1 { version }"⟩
      ⟨"operations.graphql", [selectVersion "_1"], [versionModel "_1"]⟩ :=
    ⟨rfl, hread, .cons (ofOperation_selectVersion "_1") .nil⟩
  have hruns := RunsTo.completed hprepares (.cons hbuilds .nil)
  have hmodule : (moduleName "_1").isOk = true := by decide +kernel
  obtain ⟨name, hname⟩ := exists_eq_ok_of_isOk hmodule
  refine ⟨by decide, [versionModel "_1"], ?_,
    outputFiles_cons_of_emitOperation emitOperation_versionModel hname []⟩
  rw [hruns.leaves.trace_eq]
  rfl

end ClientSdk
