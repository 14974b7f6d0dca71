import ClientSdk.Proofs.Augmentation.Written
import ClientSdk.Proofs.Build.Cycles
import ClientSdk.Proofs.Projection.Rearrangement
import ClientSdk.Proofs.Validation.Resolution
import Mathlib

/-!
# Validation and Model Building

An operation that is valid against the text of a schema can be resolved in the schema, up to what
only the text has. Building its model reports an unknown field only for a meta field, and a missing
type only for a hidden one. For a projection this is carried by the paths that it includes: each of
them is selected in selections that are valid on the type of the projection.

## Main definitions

* `Schema.LeavesOpen`: the errors that validation does not rule out.
* `Build.Covered`: the paths of a projection are selected in valid selections.

## Main results

* `Build.leavesOpen_of_ofOperation`: a checked operation fails with these errors only.
* `validation_agrees`: the same for what is loaded, augmented and checked.
-/

namespace ClientSdk

/-! ### Unknown fields -/

namespace Projection

variable {schema : Schema} {type : TypeDef} {p : Projection} {name : String}

/-- An unknown field is included and not declared. -/
theorem includes_of_unknownField? (h : p.unknownField? type = some name) :
    p.includes name = true ∧ type.field? name = none := by
  cases p with
  | all => cases h
  | fields entries =>
      rw [unknownField?, Option.map_eq_some_iff] at h
      obtain ⟨entry, hfind, rfl⟩ := h
      have hunknown := List.find?_some hfind
      rw [Bool.not_eq_true', TypeDef.hasField, Option.isSome_eq_false_iff,
        Option.isNone_iff_eq_none] at hunknown
      refine ⟨?_, hunknown⟩
      rw [includes, isSome_lookup_iff]
      exact List.mem_map_of_mem (List.mem_of_find?_eq_some hfind)

/-- What is unknown in a normal form is unknown before. -/
theorem unknownField?_of_normalize (h : (p.normalize schema type).unknownField? type = some name) :
    p.unknownField? type = some name := by
  cases p with
  | all =>
      rw [normalize_all] at h
      cases h
  | fields entries =>
      rw [normalize_fields] at h
      split at h
      · cases h
      · rw [unknownField?, normalizeEntries_eq_map, List.find?_map, Option.map_map] at h
        exact h

/-- Nothing that a pick list names is unknown. -/
theorem unknownField?_of_ofPick {var : Variable} (h : ofPick var type = .ok p) :
    p.unknownField? type = none := by
  rcases ofPick_cases h with ⟨-, rfl⟩ | ⟨names, entries, -, rfl, hentries, hlookup⟩
  · rfl
  · have hfields := exists_pickEntries_iff.mp ⟨entries, hentries⟩
    rw [unknownField?, Option.map_eq_none_iff, List.find?_eq_none]
    intro entry hentry
    have hfound := isSome_lookup_iff.mpr (List.mem_map_of_mem (f := Prod.fst) hentry)
    rw [hlookup] at hfound
    split at hfound
    · rename_i hname
      simp [hfields _ hname]
    · cases hfound

end Projection

/-! ### Errors -/

/-- The errors of building a model that validation does not rule out: a field is unknown only if
it is a meta field, and a type is missing only if it is hidden. -/
def Schema.LeavesOpen (schema : Schema) : GenerationError → Prop
  | .unknownField type name => schema.IsMeta type name
  | .missingType name _ => schema.IsHidden name
  | _ => True

namespace Build

variable {schema : Schema} {operation : Operation} {policy : ListPolicy}
  {bindings : List Binding} {visited : List QueuedType} {e : GenerationError}

/-- A type that is looked up is missing only if it is hidden. -/
theorem leavesOpen_of_typeNamed {name : String} {reference : Reference}
    (hname : name ∈ schema.types.keys ∨ schema.IsHidden name)
    (h : Augment.typeNamed schema name reference = .error e) : schema.LeavesOpen e := by
  obtain ⟨hmissing, rfl⟩ := Augment.typeNamed_eq_error_iff.mp h
  exact hname.resolve_left hmissing

/-- Errors of an unsupported selection are not ruled out. -/
theorem leavesOpen_of_ofSelections {location : String} {selections : List Selection}
    (h : Projection.ofSelections location selections = .error e) : schema.LeavesOpen e := by
  rw [Projection.ofSelections] at h
  split at h
  · cases h
  · have hkind := kind_of_selectEntries_eq_error _ _ _ (map_eq_error_iff.mp h)
    cases e with
    | unsupportedSelection _ _ => trivial
    | _ => simp [GenerationError.kind] at hkind

section Operable

variable (hoperable : schema.Operable)

include hoperable

/-- The search for nested classes fails with an error that is not ruled out, if only meta fields
are unknown in the types that it reaches. -/
theorem leavesOpen_of_innerClasses (hresolved : Resolved schema bindings)
    (hunknown : ∀ visited queued, Reached schema policy bindings visited queued →
      ∀ name, queued.projection.unknownField? queued.definition = some name →
        schema.IsMeta queued.definition.name name)
    {name : String} (h : innerClasses schema name bindings policy = .error e) :
    schema.LeavesOpen e := by
  obtain ⟨visited, -, hreached, hblocked⟩ := exists_blocked h
  cases hblocked with
  | conflict _ _ _ _ => trivial
  | cycle _ _ _ _ _ _ => trivial
  | unknown hqueued hname => exact hunknown visited _ (hreached _ hqueued) _ hname
  | @missing queued field hqueued hfield hget =>
      obtain ⟨key, hget'⟩ := (hreached queued hqueued).exists_get? hresolved
      have hscalar := (hreached queued hqueued).isScalar_eq_false
      have hdeclared := (QueuedType.mem_fields_iff.mp hfield).1
      refine (hoperable.leafName_mem_keys_or_isHidden
        (Schema.mem_declaredTypes_of_get? hget' hscalar) hscalar hdeclared).resolve_left ?_
      intro hmem
      have hsome := TypeMap.contains_iff.mpr hmem
      rw [TypeMap.contains, ← Schema.get?, hget] at hsome
      cases hsome

/-! ### Variables -/

/-- The binding of a variable of an input type fails with an error that is not ruled out. -/
theorem leavesOpen_of_variableBinding {name : String} {var : Variable}
    (hvar : schema.toDeclarations.bodySatisfies TypeBody.isInput var.type.leafName = true)
    (h : variableBinding schema name var = .error e) : schema.LeavesOpen e := by
  rw [variableBinding] at h
  rcases bind_eq_error_iff.mp h with htype | ⟨definition, -, h⟩
  · exact leavesOpen_of_typeNamed (hoperable.mem_keys_or_isHidden hvar) htype
  rcases bind_eq_error_iff.mp h with hpick | ⟨p, -, hpure⟩
  · obtain ⟨name, rfl⟩ := Projection.exists_of_ofPick_eq_error hpick
    trivial
  · exact absurd hpure pure_ne_error

/-- Flattening a value that names declared fields fails with an error that is not ruled out.
Induction on the number of types that may still be expanded. -/
theorem leavesOpen_of_shapeOf {fuel : Nat} :
    ∀ {expanding path : List String} {type : TypeRef} {key : String} {definition : TypeDef}
      {p : Projection}, schema.get? key = some definition →
      p.unknownField? definition = none → (∀ name, p.child name = .all) →
      shapeOf schema fuel expanding path type definition p = .error e → schema.LeavesOpen e := by
  induction fuel with
  | zero =>
      intro expanding path type key definition p _ _ _ h
      rw [shapeOf.eq_def] at h
      dsimp only at h
      split at h
      · cases h
      · split at h
        · obtain rfl := Except.error.inj h
          trivial
        · obtain rfl := Except.error.inj h
          trivial
  | succ fuel ih =>
      intro expanding path type key definition p hget hknown hshallow h
      rw [shapeOf.eq_def] at h
      dsimp only at h
      split at h
      · cases h
      rename_i hleaf
      rw [Bool.or_eq_true, not_or, Bool.not_eq_true] at hleaf
      split at h
      · obtain rfl := Except.error.inj h
        trivial
      rcases bind_eq_error_iff.mp h with hfields | ⟨fields, hfields, h⟩
      · obtain ⟨name, hname, -⟩ := Projection.fieldsOf_eq_error_iff.mp hfields
        rw [hknown] at hname
        cases hname
      obtain ⟨-, rfl⟩ := Projection.fieldsOf_eq_ok_iff.mp hfields
      obtain ⟨field, hfield, h⟩ := exists_of_mapM_eq_error (eq_error_of_bind_pure h)
      rcases bind_eq_error_iff.mp h with htype | ⟨child, hchild, h⟩
      · exact leavesOpen_of_typeNamed (hoperable.leafName_mem_keys_or_isHidden
          (Schema.mem_declaredTypes_of_get? hget hleaf.1) hleaf.1 (List.mem_filter.mp hfield).1)
          htype
      · rw [hshallow] at h
        exact ih (Augment.typeNamed_eq_ok_iff.mp hchild) rfl (fun _ => rfl)
          (eq_error_of_bind_pure h)

/-- Adding the variables to a model fails with an error that is not ruled out. -/
theorem leavesOpen_of_addVariables {model : ClassModel}
    (hbindings : variableBindings schema operation = .ok bindings)
    (h : addVariables schema model bindings = .error e) : schema.LeavesOpen e := by
  have hpick : ∀ binding ∈ bindings, binding.projection.unknownField? binding.definition = none ∧
      ∀ name, binding.projection.child name = .all := by
    intro binding hbinding
    obtain ⟨var, -, hvar⟩ := exists_variable_of_mem hbindings hbinding
    obtain ⟨-, -, -, hp⟩ := variableBinding_eq_ok_iff.mp hvar
    exact ⟨Projection.unknownField?_of_ofPick hp, Projection.child_of_ofPick hp⟩
  have hresolved := resolved_of_variableBindings hbindings
  rw [addVariables] at h
  split at h
  · cases h
  rcases bind_eq_error_iff.mp h with htop | ⟨cls, -, h⟩
  · rw [topClass] at htop
    refine leavesOpen_of_innerClasses hoperable hresolved ?_ (eq_error_of_bind_pure htop)
    intro visited queued hreached name hname
    cases hreached with
    | @root binding hbinding _ =>
        cases (hpick binding hbinding).1.symm.trans (Projection.unknownField?_of_normalize hname)
    | field hreached _ _ _ _ _ =>
        rw [QueuedType.projection_along,
          hreached.child_eq_all fun binding hbinding => (hpick binding hbinding).2] at hname
        cases hname
  · have hflat := eq_error_of_bind_pure h
    rw [flattenVariables] at hflat
    rcases bind_eq_error_iff.mp hflat with hshapes | ⟨shapes, -, hflat⟩
    · obtain ⟨binding, hbinding, hshape⟩ := exists_of_mapM_eq_error hshapes
      exact leavesOpen_of_shapeOf hoperable (hresolved binding hbinding) (hpick binding hbinding).1
        (hpick binding hbinding).2 (eq_error_of_bind_pure hshape)
    · have hparams := eq_error_of_bind_pure hflat
      rw [leafParameters] at hparams
      split at hparams
      · obtain rfl := Except.error.inj hparams
        trivial
      · cases hparams

/-! ### Responses -/

omit hoperable in
/-- Every path that the projection includes is selected in selections that are valid on the type.
There are such selections, since the type has fields. -/
def Covered (schema : Schema) (type : TypeDef) (p : Projection) : Prop :=
  ∀ path, p.includesPath path = true → ∃ selections,
    schema.toDeclarations.Validates (nameInSdl type.name) selections ∧ selections ≠ [] ∧
      Selection.selectsPath selections path = true

omit hoperable in
/-- A path that starts with a field is selected in an entry for this field. -/
theorem exists_entry_of_selectsPath {selections : List Selection} (hne : selections ≠ [])
    {name : String} {path : List String}
    (h : Selection.selectsPath selections (name :: path) = true) :
    ∃ alias? below, .field name alias? below ∈ selections ∧
      Selection.selectsPath below path = true := by
  rw [Selection.selectsPath_cons, List.isEmpty_eq_false_iff.mpr hne, Bool.false_or,
    List.any_eq_true] at h
  obtain ⟨selection, hmem, hbelow⟩ := h
  cases selection with
  | spread _ => cases hbelow
  | inlineFragment _ => cases hbelow
  | field first alias? below =>
      rw [Selection.below?_field] at hbelow
      split at hbelow
      · rename_i hname
        subst hname
        exact ⟨alias?, below, hmem, hbelow⟩
      · cases hbelow

/-- Below a field the paths are selected in what is valid on the type of the field. -/
theorem Covered.field {type child : TypeDef} {p : Projection} (h : Covered schema type p)
    (htype : type ∈ schema.declaredTypes) (hdistinct : type.DistinctFields) {field : FieldDef}
    (hfield : field ∈ type.fields) (hincludes : p.includes field.name = true)
    (hget : schema.get? field.type.leafName = some child) (hscalar : child.isScalar = false) :
    Covered schema child (p.child field.name) := by
  intro path hpath
  have hlonger : p.includesPath (field.name :: path) = true := by
    rw [Projection.includesPath_cons, hincludes, Bool.true_and, hpath]
  obtain ⟨selections, hvalid, hne, hselects⟩ := h _ hlonger
  obtain ⟨alias?, below, hmem, hbelow⟩ := exists_entry_of_selectsPath hne hselects
  have hsome := hdistinct.field?_eq_some hfield
  rcases hoperable.exists_field htype hvalid hmem with ⟨hnone, -⟩ | ⟨field', hfield', hchild⟩
  · cases hsome.symm.trans hnone
  · obtain rfl := Option.some.inj (hsome.symm.trans hfield')
    obtain ⟨hvalid', hne'⟩ := hchild child hget hscalar
    exact ⟨below, hvalid', hne', hbelow⟩

/-- An unknown field of a type whose paths are covered is a meta field. -/
theorem Covered.isMeta {type : TypeDef} {p : Projection} (h : Covered schema type p)
    (htype : type ∈ schema.declaredTypes) {name : String}
    (hname : p.unknownField? type = some name) : schema.IsMeta type.name name := by
  obtain ⟨hincludes, hnone⟩ := Projection.includes_of_unknownField? hname
  have hpath : p.includesPath [name] = true := by
    rw [Projection.includesPath_cons, hincludes, Projection.includesPath_nil, Bool.and_true]
  obtain ⟨selections, hvalid, hne, hselects⟩ := h _ hpath
  obtain ⟨alias?, below, hmem, -⟩ := exists_entry_of_selectsPath hne hselects
  rcases hoperable.exists_field htype hvalid hmem with ⟨-, hmeta⟩ | ⟨field, hfield, -⟩
  · exact hmeta
  · cases hnone.symm.trans hfield

/-- The types of a schema have distinct fields where they have any. -/
theorem distinctFields_of_get? {name : String} {type : TypeDef}
    (hget : schema.get? name = some type) (hscalar : type.isScalar = false) :
    type.DistinctFields := by
  refine hoperable.seals.distinct.fields type (Schema.mem_declaredTypes_of_get? hget hscalar) ?_
  intro hkind
  rw [TypeDef.isScalar, hkind] at hscalar
  cases hscalar

/-- **The paths of every reached type are covered** where those of the bindings are. -/
theorem exists_covered_of_reached (hresolved : Resolved schema bindings)
    (hroots : ∀ binding ∈ bindings, binding.isScalar = false →
      Covered schema binding.definition binding.projection)
    {queued : QueuedType} (h : Reached schema policy bindings visited queued) :
    ∃ p, Covered schema queued.definition p ∧
      queued.projection = p.normalize schema queued.definition := by
  induction h with
  | @root binding hbinding hscalar => exact ⟨_, hroots binding hbinding hscalar, rfl⟩
  | @field queued field child hreached _ hfield hget hscalar _ ih =>
      obtain ⟨p, hcovered, hprojection⟩ := ih
      obtain ⟨key, hget'⟩ := hreached.exists_get? hresolved
      have hscalar' := hreached.isScalar_eq_false
      have hdistinct := distinctFields_of_get? hoperable hget' hscalar'
      rw [QueuedType.fields_eq hprojection, List.mem_filter] at hfield
      refine ⟨p.child field.name, hcovered.field hoperable
        (Schema.mem_declaredTypes_of_get? hget' hscalar') hdistinct hfield.1 hfield.2 hget hscalar,
        ?_⟩
      rw [QueuedType.projection_along, hprojection]
      exact Projection.child_normalize p
        (Projection.childType?_eq_some hdistinct hfield.1 hget)

/-! ### Checked operations -/

variable (hchecks : schema.toDeclarations.Checks operation)

include hchecks

/-- The root of a checked operation is declared, and what the operation selects is valid on it. -/
theorem root_of_checks : schema.root operation.kind ∈ schema.declaredTypes ∧
    schema.toDeclarations.Validates (nameInSdl (schema.root operation.kind).name)
      operation.selections := by
  obtain ⟨root, hroot, hvalid⟩ := hchecks.selections
  cases hkind : operation.kind with
  | query =>
      rw [hkind] at hroot
      obtain rfl : schema.query.name = root := Option.some.inj hroot
      rw [Schema.root, nameInSdl_of_isName hoperable.writable.query]
      exact ⟨Schema.query_mem_declaredTypes, hvalid⟩
  | mutation =>
      rw [hkind, Declarations.rootKind, Declarations.root?, Schema.toDeclarations,
        Schema.toRoots] at hroot
      cases hmutations : schema.hasMutations with
      | false =>
          rw [hmutations] at hroot
          cases hroot
      | true =>
          rw [hmutations] at hroot
          obtain rfl : schema.mutation.name = root := Option.some.inj hroot
          rw [Schema.root, nameInSdl_of_isName hoperable.writable.mutation]
          exact ⟨Schema.mutation_mem_declaredTypes hmutations, hvalid⟩

/-- The root of a checked operation has fields. -/
theorem isScalar_root_of_checks : (schema.root operation.kind).isScalar = false := by
  have hroots := hoperable.seals.kind_roots hoperable.writable
  obtain ⟨root, hroot, -⟩ := hchecks.selections
  cases hkind : operation.kind with
  | query => rw [Schema.root, TypeDef.isScalar, hroots.1]; rfl
  | mutation =>
      cases hmutations : schema.hasMutations with
      | false =>
          rw [hkind, Declarations.rootKind, Declarations.root?, Schema.toDeclarations,
            Schema.toRoots, hmutations] at hroot
          cases hroot
      | true => rw [Schema.root, TypeDef.isScalar, hroots.2 hmutations]; rfl

/-- Reading what a checked operation selects fails with an error that is not ruled out. -/
theorem leavesOpen_of_responseBindings (h : responseBindings schema operation = .error e) :
    schema.LeavesOpen e := by
  obtain ⟨hroot, hvalid⟩ := root_of_checks hoperable hchecks
  have hscalar := isScalar_root_of_checks hoperable hchecks
  obtain ⟨_, entry, _, current, hsplit, -, hstep⟩ := exists_step_of_foldlM_eq_error h
  have hentry : entry ∈ operation.selections := by simp [hsplit]
  cases entry with
  | spread fragment =>
      obtain rfl := Except.error.inj hstep
      trivial
  | inlineFragment condition =>
      obtain rfl := Except.error.inj hstep
      trivial
  | field name alias? selections =>
      have hfound := hoperable.exists_field hroot hvalid hentry
      rw [addResponseBinding] at hstep
      dsimp only at hstep
      split at hstep
      · rename_i hnone
        obtain rfl := Except.error.inj hstep
        rcases hfound with ⟨-, hmeta⟩ | ⟨field, hfield, -⟩
        · exact hmeta
        · cases hnone.symm.trans hfield
      · rename_i field hfield
        rcases bind_eq_error_iff.mp hstep with hselect | ⟨p, -, hmerge⟩
        · exact leavesOpen_of_ofSelections hselect
        · have hbinding := fresh_eq_error_of_mergeBinding hmerge
          rw [responseBinding] at hbinding
          exact leavesOpen_of_typeNamed (hoperable.leafName_mem_keys_or_isHidden hroot hscalar
            (TypeDef.mem_of_field?_eq_some hfield).1) (eq_error_of_bind_pure hbinding)

/-- The paths of a binding are selected in entries that are valid on its type. -/
theorem covered_of_responseBindings (h : responseBindings schema operation = .ok bindings)
    {binding : Binding} (hbinding : binding ∈ bindings) (hscalar : binding.isScalar = false) :
    Covered schema binding.definition binding.projection := by
  obtain ⟨hroot, hvalid⟩ := root_of_checks hoperable hchecks
  have hcollects := (bindings_of_responseBindings h).2 binding hbinding
  intro path hpath
  rw [hcollects.includesPath_eq, List.any_eq_true] at hpath
  obtain ⟨entry, hentry, hanswers⟩ := hpath
  cases entry with
  | spread fragment => cases hanswers
  | inlineFragment condition => cases hanswers
  | field name alias? selections =>
      rw [Selection.answers, Bool.and_eq_true, beq_iff_eq] at hanswers
      obtain ⟨hkey, hselects⟩ := hanswers
      -- The first entry with the same key has named a field of the root, and this one names it too.
      obtain ⟨first, _, _, firstField, hfirst, hfirstKey, hfirstField, -, -⟩ :=
        hcollects.exists_field
      have hsame := hchecks.keys _ hentry _ hfirst (congrArg some (hkey.trans hfirstKey.symm))
      obtain rfl : name = first := Option.some.inj hsame
      rcases hoperable.exists_field hroot hvalid hentry with ⟨hnone, -⟩ | ⟨field, hfield, hbelow⟩
      · cases hnone.symm.trans hfirstField
      · obtain ⟨-, hget⟩ := definition_eq_of_key hchecks.keys hcollects hentry hkey hfield
        obtain ⟨hvalid', hne⟩ := hbelow binding.definition hget hscalar
        exact ⟨selections, hvalid', hne, hselects⟩

/-- **A checked operation fails only with errors that are not ruled out.** -/
theorem leavesOpen_of_ofOperation {package : String}
    (h : ClassModel.ofOperation schema package operation = .error e) : schema.LeavesOpen e := by
  rw [ClassModel.ofOperation] at h
  rcases bind_eq_error_iff.mp h with hvars | ⟨vars, hvars, h⟩
  · obtain ⟨var, hvar, hbinding⟩ := exists_of_mapM_eq_error hvars
    exact leavesOpen_of_variableBinding hoperable (hchecks.vars var hvar) hbinding
  rcases bind_eq_error_iff.mp h with hfields | ⟨fields, hfields, h⟩
  · exact leavesOpen_of_responseBindings hoperable hchecks hfields
  rcases bind_eq_error_iff.mp h with hmodel | ⟨model, -, h⟩
  · exact leavesOpen_of_addVariables hoperable hvars hmodel
  rw [addResponse] at h
  split at h
  · cases h
  have htop := eq_error_of_bind_pure h
  rw [topClass] at htop
  have hresolved := resolved_of_responseBindings hfields
  refine leavesOpen_of_innerClasses hoperable hresolved ?_ (eq_error_of_bind_pure htop)
  intro visited queued hreached name hname
  obtain ⟨p, hcovered, hprojection⟩ := exists_covered_of_reached hoperable hresolved
    (fun binding hbinding hscalar =>
      covered_of_responseBindings hoperable hchecks hfields hbinding hscalar) hreached
  obtain ⟨key, hget⟩ := hreached.exists_get? hresolved
  rw [hprojection] at hname
  exact hcovered.isMeta hoperable
    (Schema.mem_declaredTypes_of_get? hget hreached.isScalar_eq_false)
    (Projection.unknownField?_of_normalize hname)

end Operable

end Build

/-! ### Augmented schemas -/

/-- Operations can be checked against a schema that has been read, augmented and made valid. -/
theorem operable_of_toValid {text : String} {schema : Schema} {result : Augmentation}
    {valid : ValidSchema} (hload : Schema.ofText text = .ok schema)
    (haugment : augment schema = .ok result) (hvalid : result.schema.toValid = .ok valid) :
    result.schema.Operable ∧ valid.declarations = result.schema.toDeclarations := by
  have hloaded := Schema.loaded_of_ofText hload
  obtain ⟨added, types, happended⟩ :=
    Augment.exists_appended hloaded.keyed hloaded.notMem_keys haugment
  have hwritable := happended.isWritable hloaded
  obtain ⟨hseals, hdeclarations⟩ := (Schema.toValid_eq_ok_iff hwritable).mp hvalid
  have hkey : ∀ {name type}, result.schema.get? name = some type →
      name ∈ result.schema.types.keys := fun hget =>
    TypeMap.contains_iff.mp (Option.isSome_iff_exists.mpr ⟨_, hget⟩)
  exact ⟨⟨happended.keyed hloaded.keyed,
    fun name hname => hkey (happended.get?_eq (hloaded.standard name hname)),
    fun name hname => hkey (happended.get?_marker hname), hwritable, hseals⟩, hdeclarations⟩

/-- **Validation and model building agree.** Where a schema has been read, augmented and made
valid, and an operation has been read as valid against it, its model is built or fails for another
reason than that a field is unknown or a type is missing, but for what the text of the schema has
and the schema has not: the meta fields, which can be selected although no type declares them, and
the roots, the types that describe schemas and the markers under the names that they have in the
text, to which a field or a variable can refer. -/
theorem validation_agrees {text document path package : String} {schema : Schema}
    {result : Augmentation} {valid : ValidSchema} {operations : List Operation}
    {operation : Operation} {e : GenerationError} (hload : Schema.ofText text = .ok schema)
    (haugment : augment schema = .ok result) (hvalid : result.schema.toValid = .ok valid)
    (hread : operationsOfText valid document path = .ok operations)
    (hoperation : operation ∈ operations)
    (h : ClassModel.ofOperation result.schema package operation = .error e) :
    (e.kind = "UnknownField" → ∃ type name, e = .unknownField type name ∧
      (name = "__typename" ∨ type = result.schema.query.name ∧ name ∈ ["__schema", "__type"])) ∧
    (e.kind = "SchemaConsistency" → ∃ name reference, e = .missingType name reference ∧
      (name = result.schema.query.name ∨ name = result.schema.mutation.name ∨
        name ∈ BuiltIn.introspectionTypes.map (·.name) ∨
        name ∈ mutationResults.map nameInSdl)) := by
  obtain ⟨hoperable, hdeclarations⟩ := operable_of_toValid hload haugment hvalid
  have hchecks := checks_of_operationsOfText hread hoperation
  rw [hdeclarations] at hchecks
  have hopen := Build.leavesOpen_of_ofOperation hoperable hchecks h
  constructor
  · intro hkind
    cases e with
    | unknownField type name => exact ⟨type, name, rfl, hopen⟩
    | _ => simp [GenerationError.kind] at hkind
  · intro hkind
    cases e with
    | missingType name reference => exact ⟨name, reference, rfl, hopen⟩
    | _ => simp [GenerationError.kind] at hkind

/-- A schema whose root of queries refers to itself. -/
def versionSchema : Schema where
  types := .ofList (standardScalars.map .givenScalar)
  query := { name := "Query", fields := [
    { name := "self", type := .named "Query" true },
    { name := "version", type := .named "Int" true }] }
  mutation := { name := "Mutation" }

/-- The schema as it is declared. -/
def versionText : String := "type Query { self: Query version: Int }"

/-- A query of a meta field and one through the root. -/
def versionQueries : String := "query Name { __typename } query Self { self { version } }"

theorem ofText_versionText : Schema.ofText versionText = .ok versionSchema := by cbv

/-- Without object types, augmentation adds no more than the markers. -/
theorem augment_versionSchema : augment versionSchema =
    .ok { schema := Augment.addResultScalars versionSchema
          changes := mutationResults.map .markerType } := rfl

/-- The schema is made valid. -/
theorem exists_toValid_versionSchema :
    ∃ valid, (Augment.addResultScalars versionSchema).toValid = .ok valid ∧
      valid.declarations = (Augment.addResultScalars versionSchema).toDeclarations := by
  have hloaded := Schema.loaded_of_ofText ofText_versionText
  obtain ⟨added, types, happended⟩ :=
    Augment.exists_appended hloaded.keyed hloaded.notMem_keys augment_versionSchema
  have hseals : (Augment.addResultScalars versionSchema).Seals := by
    refine ⟨by decide, ⟨by decide, by decide, ?_⟩, by decide⟩
    simp only [TypeDef.DistinctFields]
    decide
  exact Schema.exists_toValid_of_seals (happended.isWritable hloaded) hseals

/-- Both queries are valid against the schema. -/
theorem exists_operations_of_versionQueries :
    ∃ valid, (Augment.addResultScalars versionSchema).toValid = .ok valid ∧
      operationsOfText valid versionQueries "version.graphql" = .ok [
        { name := "Name", kind := .query, selections := [.field "__typename" none []] },
        { name := "Self", kind := .query,
          selections := [.field "self" none [.field "version" none []]] }] := by
  obtain ⟨valid, hvalid, hdeclarations⟩ := exists_toValid_versionSchema
  have hparse : Document.parse? versionQueries = some [
      .operation { kind := .query, name := some "Name"
                   selections := [.field none "__typename" [] [] []] },
      .operation { kind := .query, name := some "Self"
                   selections := [
                     .field none "self" [] [] [.field none "version" [] [] []]] }] := by
    cbv
  exact ⟨valid, hvalid, operationsOfText_eq_ok hparse (hdeclarations ▸ by decide) rfl rfl⟩

/-- **Validation accepts what building rejects**: a meta field, and a field whose type is the
root. -/
theorem validation_disagrees :
    ∃ schema result valid operations, Schema.ofText versionText = .ok schema ∧
      augment schema = .ok result ∧ result.schema.toValid = .ok valid ∧
      operationsOfText valid versionQueries "version.graphql" = .ok operations ∧
      operations.map (fun operation => ClassModel.ofOperation result.schema "crate" operation) =
        [.error (.unknownField "Query" "__typename"),
          .error (.missingType "Query" (.field "Query" "self"))] := by
  obtain ⟨valid, hvalid, hread⟩ := exists_operations_of_versionQueries
  exact ⟨_, _, valid, _, ofText_versionText, augment_versionSchema, hvalid, hread, rfl⟩

/-- The two queries fail for what only the text of the schema has. -/
theorem validation_agrees_version :
    ∃ schema result valid operations, Schema.ofText versionText = .ok schema ∧
      augment schema = .ok result ∧ result.schema.toValid = .ok valid ∧
      operationsOfText valid versionQueries "version.graphql" = .ok operations ∧
      operations.length = 2 ∧ ∀ operation ∈ operations, ∃ e,
        ClassModel.ofOperation result.schema "crate" operation = .error e ∧
        ((∃ type name, e = .unknownField type name ∧
            (name = "__typename" ∨
              type = result.schema.query.name ∧ name ∈ ["__schema", "__type"])) ∨
          ∃ name reference, e = .missingType name reference ∧
            (name = result.schema.query.name ∨ name = result.schema.mutation.name ∨
              name ∈ BuiltIn.introspectionTypes.map (·.name) ∨
              name ∈ mutationResults.map nameInSdl)) := by
  obtain ⟨valid, hvalid, hread⟩ := exists_operations_of_versionQueries
  have hagrees := fun operation hoperation e => @validation_agrees versionText versionQueries
    "version.graphql" "crate" versionSchema _ valid _ operation e ofText_versionText
    augment_versionSchema hvalid hread hoperation
  refine ⟨_, _, valid, _, ofText_versionText, augment_versionSchema, hvalid, hread, rfl, ?_⟩
  intro operation hoperation
  have hboth := hoperation
  simp only [List.mem_cons, List.not_mem_nil, or_false] at hboth
  rcases hboth with rfl | rfl
  · exact ⟨_, rfl, Or.inl ((hagrees _ hoperation _ rfl).1 rfl)⟩
  · exact ⟨_, rfl, Or.inr ((hagrees _ hoperation _ rfl).2 rfl)⟩

end ClientSdk
