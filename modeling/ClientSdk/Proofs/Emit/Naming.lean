import ClientSdk.Proofs.Build.Leaves
import ClientSdk.Proofs.Emit.Collisions

/-!
# Names That Can Be Written

Where an operation and its schema go by names, every name that the code of the operation is written
with becomes an identifier, but for types whose names have no letter in front of a digit. This goes
through all that names are made from: flattened parameters are called after paths of fields,
structures and modules after the operation. Constructors are called by names with dots between
them, which are taken apart again. What remains are the types that the code spells. If they become
identifiers too, emission can fail for one cause only: two names of one class become the same
identifier.

## Main definitions

* `GoesByNames`: an operation and the types of objects in its schema go by names.
* `Emit.SpellsTypes`: the types that the code of a model spells can be written, or the failure has a
  property.
* `HasTypeIdents`: types become identifiers, and so do the classes of an operation.

## Main results

* `isName_leafParameterName`: flattened parameters go by names.
* `pathOfConstructor_type`, `pathOfConstructor_qualified`: the paths of constructors.
* `modelFails_of_spellsTypes`: a model can be written if its types can be.
* `failsOnly_separates`: the one cause for which the code of an operation is not emitted.
-/

namespace ClientSdk

/-! ### Names of parameters -/

/-- Names with underscores between them are a name. -/
theorem Token.isName_intercalate {parts : List String} (hne : parts ≠ [])
    (h : ∀ part ∈ parts, isName part = true) : isName ("_".intercalate parts) = true := by
  induction parts with
  | nil => exact absurd rfl hne
  | cons part parts ih =>
      obtain ⟨hpart, hparts⟩ := List.forall_mem_cons.mp h
      cases parts with
      | nil => exact hpart
      | cons next others =>
          have hrest := all_isNameContinue (ih (List.cons_ne_nil _ _) hparts)
          rw [String.intercalate_cons_cons, String.append_assoc]
          refine isName_append hpart ?_
          rw [String.toList_append, List.all_append, hrest, Bool.and_true]
          decide

/-- An operation and the types of objects in its schema go by names. -/
structure GoesByNames (schema : Schema) (operation : Operation) : Prop where
  /-- The name of the operation. -/
  name : Token.isName operation.name = true
  /-- The names of its variables. -/
  vars : ∀ var ∈ operation.vars, Token.isName var.name = true
  /-- The keys of its response. -/
  keys : ∀ key ∈ responseKeys operation.selections, Token.isName key = true
  /-- The names of types. -/
  types : ∀ type ∈ schema.types.values, type.isScalar = false → Token.isName type.name = true
  /-- The names of their fields. -/
  fields : ∀ type ∈ schema.types.values, type.isScalar = false → ∀ field ∈ type.fields,
    Token.isName field.name = true

/-- The parameter has a name and the type of a value in the schema. -/
def Parameter.IsMember (schema : Schema) (param : Parameter) : Prop :=
  Token.isName param.name = true ∧ ∃ type definition, param.type = .ofRef type ∧
    schema.get? type.leafName = some definition

namespace Build

variable {schema : Schema} {bindings : List Binding} {flat : FlatVariables}

/-- Marking the last parameter keeps names and types. -/
theorem isMember_of_mem_markLast {params : List Parameter}
    (h : ∀ param ∈ params, param.IsMember schema) :
    ∀ param ∈ Parameter.markLast params, param.IsMember schema := by
  intro marked hmarked
  obtain ⟨param, hparam, hname, htype⟩ := Parameter.exists_mem_of_mem_markLast hmarked
  obtain ⟨hisName, type, definition, heq, hget⟩ := h param hparam
  exact ⟨hname ▸ hisName, type, definition, htype ▸ heq, hget⟩

/-- The leaves of flattened variables are the leaves of the bindings. -/
theorem exists_isLeaf {operation : String}
    (h : flattenVariables schema operation bindings = .ok flat) {leaf : FlatLeaf}
    (hleaf : leaf ∈ flat.leaves) : ∃ position, IsLeaf schema bindings position leaf := by
  simp only [flattenVariables, bind_eq_ok_iff, pure_eq_ok_iff] at h
  obtain ⟨shapes, hshapes, params, -, rfl⟩ := h
  rw [FlatVariables.leaves, ← ValueShape.map_snd_placedFields 0 shapes] at hleaf
  obtain ⟨⟨position, _⟩, hmem, rfl⟩ := List.mem_map.mp hleaf
  exact ⟨position, ((listsLeaves_of_shapes hshapes).mem_iff _ _).mp hmem⟩

section Leaves

variable (hfields : ∀ type ∈ schema.types.values, type.isScalar = false →
    ∀ field ∈ type.fields, Token.isName field.name = true)

include hfields

/-- Names lead from a value with a name to its leaves, whose types are in the schema. Induction on
the position of the leaf. -/
theorem LeafAt.names {path : List String} {type : TypeRef} {definition : TypeDef} {p : Projection}
    {position : List Nat} {leaf : FlatLeaf}
    (h : LeafAt schema path type definition p position leaf)
    (hget : schema.get? type.leafName = some definition) (hne : path ≠ [])
    (hpath : ∀ name ∈ path, Token.isName name = true) :
    leaf.path ≠ [] ∧ (∀ name ∈ leaf.path, Token.isName name = true) ∧
      ∃ definition, schema.get? leaf.type.leafName = some definition := by
  induction h with
  | @value path type definition p hleaf => exact ⟨hne, hpath, definition, hget⟩
  | @field path type definition child p i field position leaf hscalar hlist hfield hchild hbelow
      ih =>
      refine ih hchild (List.append_ne_nil_of_right_ne_nil _ (List.cons_ne_nil _ _)) ?_
      have hdeclared := List.mem_of_mem_filter (List.mem_of_getElem? hfield)
      rw [List.forall_mem_append, List.forall_mem_singleton]
      exact ⟨hpath, hfields definition (Schema.mem_values_of_get? hget) hscalar field hdeclared⟩

/-- The leaves of bindings that go by names are reached by names. -/
theorem names_of_mem_leaves {operation : String} (hresolved : Resolved schema bindings)
    (hnames : ∀ binding ∈ bindings, Token.isName binding.name = true)
    (h : flattenVariables schema operation bindings = .ok flat) {leaf : FlatLeaf}
    (hleaf : leaf ∈ flat.leaves) :
    leaf.path ≠ [] ∧ (∀ name ∈ leaf.path, Token.isName name = true) ∧
      ∃ definition, schema.get? leaf.type.leafName = some definition := by
  obtain ⟨position, i, below, binding, hbinding, -, hat⟩ := exists_isLeaf h hleaf
  have hmem := List.mem_of_getElem? hbinding
  refine hat.names hfields (hresolved binding hmem) (List.cons_ne_nil _ _) ?_
  rw [List.forall_mem_singleton]
  exact hnames binding hmem

/-- **Flattened parameters go by names**, whether they are called after a field or after a path. -/
theorem isName_leafParameterName {operation : String} (hresolved : Resolved schema bindings)
    (hnames : ∀ binding ∈ bindings, Token.isName binding.name = true)
    (h : flattenVariables schema operation bindings = .ok flat) {leaf : FlatLeaf}
    (hleaf : leaf ∈ flat.leaves) : Token.isName (leafParameterName flat.leaves leaf) = true := by
  obtain ⟨hne, hpath, -⟩ := names_of_mem_leaves hfields hresolved hnames h hleaf
  rw [leafParameterName]
  split
  · exact Token.isName_intercalate hne hpath
  · rw [leafFieldName, List.getLastD_eq_getLast?, List.getLast?_eq_some_getLast hne]
    exact hpath _ (List.getLast_mem hne)

/-- Flattened parameters are members. -/
theorem isMember_flat {operation : String} (hresolved : Resolved schema bindings)
    (hnames : ∀ binding ∈ bindings, Token.isName binding.name = true)
    (h : flattenVariables schema operation bindings = .ok flat) :
    ∀ param ∈ flat.parameters, param.IsMember schema := by
  rw [(flattenVariables_eq_ok_iff.mp h).2.2]
  refine isMember_of_mem_markLast fun param hparam => ?_
  obtain ⟨leaf, hleaf, rfl⟩ := List.mem_map.mp hparam
  obtain ⟨-, -, definition, hget⟩ := names_of_mem_leaves hfields hresolved hnames h hleaf
  exact ⟨isName_leafParameterName hfields hresolved hnames h hleaf, leaf.type, definition, rfl,
    hget⟩

/-- What rebuilt variables read goes by names. -/
theorem isName_of_mem_sources {operation pre : String} (hresolved : Resolved schema bindings)
    (hnames : ∀ binding ∈ bindings, Token.isName binding.name = true)
    (h : flattenVariables schema operation bindings = .ok flat) {arg : Argument}
    (harg : arg ∈ flat.arguments pre) : ∀ source ∈ arg.sources, Token.isName source = true := by
  intro source hsource
  have hmem := Emit.sources_subset harg hsource
  rw [FlatVariables.arguments, Argument.sourcesOfAll_markLast, sourcesOfAll_rebuildFields] at hmem
  obtain ⟨leaf, hleaf, rfl⟩ := List.mem_map.mp hmem
  exact isName_leafParameterName hfields hresolved hnames h hleaf

end Leaves

/-! ### Names of classes -/

section Model

variable {package : String} {operation : Operation} {model : ClassModel}
  (h : ClassModel.ofOperation schema package operation = .ok model)

include h

/-- A class of a model has a parameter for each of some bindings, and a nested class for each type
that is found from them. The bindings are called like variables or answers. -/
theorem exists_bindings_of_mem {cls : ClassDecl} (hcls : cls ∈ model.topClasses) :
    ∃ policy bindings visited, Resolved schema bindings ∧
      (∀ binding ∈ bindings,
        binding.name ∈ operation.vars.map (·.name) ++ responseKeys operation.selections) ∧
      cls.parameters = Parameter.markLast (bindings.map Binding.parameter) ∧
      Discovered schema policy bindings visited ∧ cls.nested = visited.map QueuedType.decl := by
  rcases List.mem_append.mp hcls with hvars | hresponse
  · obtain ⟨bindings, visited, flat, hrebuilds⟩ :=
      exists_rebuilds h (Option.mem_toList.mp hvars)
    refine ⟨.reuse, bindings, visited, hrebuilds.resolved, fun binding hbinding => ?_,
      hrebuilds.parameters, hrebuilds.discovered, hrebuilds.nested⟩
    obtain ⟨var, hvar, hmake⟩ := exists_variable_of_mem hrebuilds.bound hbinding
    rw [(variableBinding_eq_ok_iff.mp hmake).1]
    exact List.mem_append_left _ (List.mem_map_of_mem hvar)
  · obtain ⟨-, fields, -, hfields, -, hclass⟩ := exists_parts h
    cases hclass with
    | none hnone => cases hnone.symm.trans (Option.mem_toList.mp hresponse)
    | @some _ nested other _ hnested hsome _ hparameters hinner =>
        obtain rfl := Option.some.inj (hsome.symm.trans (Option.mem_toList.mp hresponse))
        obtain ⟨visited, hdiscovered, rfl⟩ := exists_discovered hnested
        refine ⟨.agree, fields, visited, resolved_of_responseBindings hfields, ?_, hparameters,
          hdiscovered, hinner⟩
        intro binding hbinding
        refine List.mem_append_right _ (List.mem_eraseDups.mp ?_)
        rw [← (bindings_of_responseBindings hfields).1]
        exact List.mem_map_of_mem hbinding

variable (hnames : GoesByNames schema operation)

include hnames

/-- The parameters of a class of a model are members, and so are those of its nested classes, which
are called like types of objects. -/
theorem isMember_of_mem_topClasses {cls : ClassDecl} (hcls : cls ∈ model.topClasses) :
    (∀ param ∈ cls.parameters, param.IsMember schema) ∧
      ∀ inner ∈ cls.nested, (∀ param ∈ inner.parameters, param.IsMember schema) ∧
        ∃ type ∈ schema.types.values, type.isScalar = false ∧ type.name = inner.name := by
  obtain ⟨policy, bindings, visited, hresolved, hbound, hparameters, hdiscovered, hnested⟩ :=
    exists_bindings_of_mem h hcls
  rw [hparameters, hnested]
  constructor
  · refine isMember_of_mem_markLast fun param hparam => ?_
    obtain ⟨binding, hbinding, rfl⟩ := List.mem_map.mp hparam
    have hname : Token.isName binding.name = true := by
      rcases List.mem_append.mp (hbound binding hbinding) with hvar | hkey
      · obtain ⟨var, hvar, heq⟩ := List.mem_map.mp hvar
        exact heq ▸ hnames.vars var hvar
      · exact hnames.keys _ hkey
    exact ⟨hname, binding.type, binding.definition, rfl, hresolved binding hbinding⟩
  · intro inner hinner
    obtain ⟨queued, hqueued, rfl⟩ := List.mem_map.mp hinner
    have hreached := hdiscovered.reached queued hqueued
    have hscalar := hreached.isScalar_eq_false
    obtain ⟨key, hget⟩ := hreached.exists_get? hresolved
    have htype := Schema.mem_values_of_get? hget
    refine ⟨isMember_of_mem_markLast fun param hparam => ?_, queued.definition, htype, hscalar,
      rfl⟩
    obtain ⟨field, hfield, rfl⟩ := List.mem_map.mp hparam
    obtain ⟨child, hchild, -⟩ := (hdiscovered.followed queued hqueued).2 field hfield
    exact ⟨hnames.fields queued.definition htype hscalar field
      (QueuedType.mem_fields_iff.mp hfield).1, field.type, child, rfl, hchild⟩

/-- Nested classes go by names. -/
theorem isName_of_mem_nested {cls : ClassDecl} (hcls : cls ∈ model.topClasses) {inner : ClassDecl}
    (hinner : inner ∈ cls.nested) : Token.isName inner.name = true := by
  obtain ⟨-, type, htype, hscalar, heq⟩ :=
    (isMember_of_mem_topClasses h hnames hcls).2 inner hinner
  exact heq ▸ hnames.types type htype hscalar

end Model

end Build

namespace Emit

open Build Code

/-! ### Paths of constructors -/

section Paths

variable {scope : Scope} {type : String} {typeIdent : Ident} (htype : Token.isName type = true)
  (htypeIdent : Ident.ofTypeName type = .ok typeIdent)

include htype htypeIdent

/-- The constructor of a type of this scope. -/
theorem pathOfConstructor_type : pathOfConstructor scope type =
    .ok (plainPath (scope.qualify typeIdent ++ [.plain "new"])) := by
  rw [pathOfConstructor, dottedParts_of_notMem (dot_notMem_of_isName htype)]
  dsimp only
  rw [htypeIdent]
  rfl

/-- The constructor of a type in a class of an operation. -/
theorem pathOfConstructor_qualified {operation cls : String} {module clsIdent : Ident}
    (hoperation : Token.isName operation = true) (hcls : Token.isName cls = true)
    (hmodule : Ident.ofValueName operation = .ok module)
    (hclsIdent : Ident.ofValueName cls = .ok clsIdent) :
    pathOfConstructor scope (operation ++ "." ++ cls ++ "." ++ type) =
      .ok { scope.package with
        segments := scope.package.segments ++
          (plainPath [module, clsIdent, typeIdent, .plain "new"]).segments } := by
  rw [pathOfConstructor, dottedParts_qualified hoperation hcls htype]
  dsimp only
  rw [hmodule, hclsIdent, htypeIdent]
  rfl

end Paths

/-- The name of a value becomes an identifier. -/
theorem failsOnly_ofValueName_of_isName {P : GenerationError → Prop} {name : String}
    (hname : Token.isName name = true) : FailsOnly P (Ident.ofValueName name) := by
  obtain ⟨ident, hident⟩ := Ident.exists_ofValueName hname
  exact .of_eq_ok hident

section FailingPaths

variable {P : GenerationError → Prop} {scope : Scope} {type : String}
  (htype : Token.isName type = true) (h : FailsOnly P (Ident.ofTypeName type))

include htype h

/-- The constructor of a type of this scope has a path if the type has an identifier. -/
theorem failsOnly_path_type : FailsOnly P (pathOfConstructor scope type) := by
  rw [pathOfConstructor, dottedParts_of_notMem (dot_notMem_of_isName htype)]
  exact .bind h fun _ _ => .pure _

/-- The constructor of a type in a class of an operation has a path if the type has an
identifier. -/
theorem failsOnly_path_qualified {operation cls : String}
    (hoperation : Token.isName operation = true) (hcls : Token.isName cls = true) :
    FailsOnly P (pathOfConstructor scope (operation ++ "." ++ cls ++ "." ++ type)) := by
  rw [pathOfConstructor, dottedParts_qualified hoperation hcls htype]
  exact .bind (failsOnly_ofValueName_of_isName hoperation) fun _ _ =>
    .bind (failsOnly_ofValueName_of_isName hcls) fun _ _ => .bind h fun _ _ => .pure _

end FailingPaths

/-! ### Types that are spelled -/

/-- The types that the code of a model spells can be written, or the failure has the property. Only
they can have no identifier, where the operation and its schema go by names. -/
structure SpellsTypes (P : GenerationError → Prop) (schema : Schema) (operation : Operation)
    (model : ClassModel) : Prop where
  /-- The classes and their nested classes. -/
  classes : ∀ cls ∈ model.topClasses, ∀ decl ∈ cls :: cls.nested,
    FailsOnly P (Ident.ofTypeName decl.name)
  /-- The types of their parameters. -/
  members : ∀ cls ∈ model.topClasses, ∀ decl ∈ cls :: cls.nested, ∀ param ∈ decl.parameters,
    ∀ scope, FailsOnly P (emitType scope param.type)
  /-- The types of flattened parameters. -/
  flattened : ∀ {cls bindings visited flat}, cls ∈ model.topClasses →
    Rebuilds schema operation model cls bindings visited flat →
      ∀ param ∈ flat.parameters, ∀ scope, FailsOnly P (emitType scope param.type)
  /-- The types whose constructors are called. -/
  called : ∀ {cls bindings visited flat}, cls ∈ model.topClasses →
    Rebuilds schema operation model cls bindings visited flat →
      ∀ pre, ∀ arg ∈ flat.arguments pre, arg.CallsOnly fun function => ∃ type,
        function = pre ++ type ∧ Token.isName type = true ∧ FailsOnly P (Ident.ofTypeName type)

section Spelled

variable {schema : Schema} {package : String} {operation : Operation} {model : ClassModel}
  {P : GenerationError → Prop} (hnames : GoesByNames schema operation)

include hnames

/-- The bindings of variables that are rebuilt go by names. -/
theorem isName_of_rebuilds {cls : ClassDecl} {bindings : List Binding} {visited : List QueuedType}
    {flat : FlatVariables} (hrebuilds : Rebuilds schema operation model cls bindings visited flat) :
    ∀ binding ∈ bindings, Token.isName binding.name = true := by
  intro binding hbinding
  obtain ⟨var, hvar, hmake⟩ := exists_variable_of_mem hrebuilds.bound hbinding
  exact (variableBinding_eq_ok_iff.mp hmake).1 ▸ hnames.vars var hvar

variable (h : ClassModel.ofOperation schema package operation = .ok model)
  (hspells : SpellsTypes P schema operation model)

include hspells

/-- A function that rebuilds variables can be written if the constructors of types that can be have
paths. -/
theorem callFails_of_rebuilds {cls : ClassDecl} (hcls : cls ∈ model.topClasses)
    {bindings : List Binding} {visited : List QueuedType} {flat : FlatVariables}
    (hrebuilds : Rebuilds schema operation model cls bindings visited flat) {pre : String}
    (hpaths : ∀ scope type, Token.isName type = true → FailsOnly P (Ident.ofTypeName type) →
      FailsOnly P (pathOfConstructor scope (pre ++ type))) :
    CallFails P flat.parameters (flat.arguments pre) := by
  have hbound := isName_of_rebuilds hnames hrebuilds
  constructor
  · intro param hparam
    obtain ⟨hname, -⟩ := isMember_flat hnames.fields hrebuilds.resolved hbound
      hrebuilds.flattened param hparam
    exact ⟨failsOnly_ofValueName_of_isName hname, hspells.flattened hcls hrebuilds param hparam⟩
  · intro arg harg scope
    refine failsOnly_emitArgument ((hspells.called hcls hrebuilds pre arg harg).mono ?_)
      fun source hsource => ?_
    · rintro _ ⟨type, rfl, htype, hident⟩
      exact hpaths scope type htype hident
    · exact failsOnly_ofValueName_of_isName (isName_of_mem_sources hnames.fields
        hrebuilds.resolved hbound hrebuilds.flattened harg source hsource)

include h

/-- The constructors of a class that take flattened parameters can be written. -/
theorem callFails_of_mem_secondary {cls : ClassDecl} (hcls : cls ∈ model.topClasses)
    {constructor : FlatConstructor} (hconstructor : constructor ∈ cls.secondary) :
    CallFails P constructor.parameters constructor.arguments := by
  obtain ⟨bindings, visited, flat, hrebuilds, rfl⟩ :=
    exists_rebuilds_of_mem_secondary h hcls hconstructor
  refine callFails_of_rebuilds hnames hspells hcls hrebuilds fun scope type htype hident => ?_
  rw [String.empty_append]
  exact failsOnly_path_type htype hident

/-- The helper of a model can be written. -/
theorem callFails_helper : CallFails P model.helperParameters model.helperArguments := by
  cases hvars : model.variablesClass with
  | none =>
      obtain ⟨hparameters, harguments⟩ := helper_of_ofOperation h hvars
      rw [hparameters, harguments]
      exact ⟨fun _ hmem => absurd hmem List.not_mem_nil,
        fun _ hmem => absurd hmem List.not_mem_nil⟩
  | some cls =>
      have hcls : cls ∈ model.topClasses := List.mem_append_left _ (Option.mem_toList.mpr hvars)
      obtain ⟨bindings, visited, flat, hrebuilds⟩ := exists_rebuilds h hvars
      rw [hrebuilds.helperParameters, hrebuilds.helperArguments]
      exact callFails_of_rebuilds hnames hspells hcls hrebuilds fun _ _ htype hident =>
        failsOnly_path_qualified htype hident hnames.name
          (isName_append_topSuffix hnames.name (by decide))

/-- A class of a model can be written unless two of its names become the same identifier. -/
theorem classFails_of_mem_topClasses {cls : ClassDecl} (hcls : cls ∈ model.topClasses)
    (hcollision : ¬cls.Separates → ∀ clash name, P (.namingCollision clash name)) :
    ClassFails P cls := by
  obtain ⟨suffix, hsuffix, heq⟩ := (isNamedFor_of_ofOperation h).exists_suffix hcls
  have hname : Token.isName cls.name = true := heq ▸ isName_append_topSuffix hnames.name hsuffix
  obtain ⟨hmembers, hnested⟩ := isMember_of_mem_topClasses h hnames hcls
  have hisName : ∀ decl ∈ cls :: cls.nested, ∀ param ∈ decl.parameters,
      Token.isName param.name = true :=
    List.forall_mem_cons.mpr ⟨fun param hparam => (hmembers param hparam).1,
      fun inner hinner param hparam => ((hnested inner hinner).1 param hparam).1⟩
  refine ⟨failsOnly_ofValueName_of_isName hname, fun decl hdecl => ?_, ?_, ?_⟩
  · refine ⟨hspells.classes cls hcls decl hdecl, fun param hparam => ?_, fun hrepeated => ?_⟩
    · exact ⟨failsOnly_ofValueName_of_isName (hisName decl hdecl param hparam),
        hspells.members cls hcls decl hdecl param hparam⟩
    · exact hcollision (fun hdistinct => hrepeated (hdistinct.2 decl hdecl)) _
  · exact fun hrepeated => hcollision (fun hdistinct => hrepeated hdistinct.1) _
  · exact fun constructor hconstructor =>
      callFails_of_mem_secondary hnames h hspells hcls hconstructor

/-- **A model can be written if its types can be**, and its package is a path, unless two names of
one class become the same identifier. -/
theorem modelFails_of_spellsTypes (hpackage : FailsOnly P (PackagePath.parse model.package))
    (hcollision : ∀ cls ∈ model.topClasses, ¬cls.Separates →
      ∀ clash name, P (.namingCollision clash name)) :
    ModelFails P model :=
  ⟨hpackage, fun cls hcls => classFails_of_mem_topClasses hnames h hspells hcls
    (hcollision cls hcls), callFails_helper hnames h hspells⟩

end Spelled

/-! ### The one cause of failure -/

/-- Types become identifiers in generated code, and so do the classes of an operation. -/
structure HasTypeIdents (schema : Schema) (operation : Operation) : Prop where
  /-- The classes of the variables and the response. -/
  classes : ∀ suffix ∈ topSuffixes, (Ident.ofTypeName (operation.name ++ suffix)).isOk = true
  /-- The types that are no results of synthesized mutations. -/
  types : ∀ type ∈ schema.types.values, isResultMember (memberName type.name) = true ∨
    (Ident.ofTypeName (memberName type.name)).isOk = true

/-- A name is not that of a result. -/
theorem isResultMember_of_isName {name : String} (h : Token.isName name = true) :
    isResultMember name = false := by
  have hresults : ∀ result ∈ mutationResults, Token.isName (memberName result) = false := by
    decide
  rw [isResultMember, List.any_eq_false]
  intro result hresult heq
  rw [beq_iff_eq] at heq
  rw [← heq, hresults result hresult] at h
  cases h

section Model

variable {schema : Schema} {package : String} {operation : Operation} {model : ClassModel}
  {P : GenerationError → Prop} (hkeyed : schema.Keyed) (hidents : HasTypeIdents schema operation)
  (hnames : GoesByNames schema operation) (hplain : PlainNames schema)

include hidents

/-- A type of objects has an identifier. -/
theorem exists_ofTypeName (hplain : PlainNames schema) (hnames : GoesByNames schema operation)
    {type : TypeDef} (htype : type ∈ schema.types.values) (hscalar : type.isScalar = false) :
    ∃ ident, Ident.ofTypeName type.name = .ok ident := by
  have hmember := hidents.types type htype
  obtain ⟨hstandard, hreserved⟩ := hplain type htype hscalar
  rw [memberName_eq_self hstandard hreserved,
    isResultMember_of_isName (hnames.types type htype hscalar)] at hmember
  exact exists_eq_ok_of_isOk (hmember.resolve_left Bool.false_ne_true)

include hkeyed

/-- The type of a member can be written. -/
theorem failsOnly_emitType_of_isMember {param : Parameter} (h : param.IsMember schema)
    (scope : Scope) : FailsOnly P (emitType scope param.type) := by
  obtain ⟨-, type, definition, htype, hget⟩ := h
  refine failsOnly_emitType scope ?_
  rw [htype, MemberType.leafName_ofRef, ← hkeyed.name_eq hget]
  refine (hidents.types definition (Schema.mem_values_of_get? hget)).imp_right fun hok => ?_
  obtain ⟨ident, hident⟩ := exists_eq_ok_of_isOk hok
  exact .of_eq_ok hident

include hplain hnames

/-- **All types of a model can be written**, if all types of the schema have identifiers. -/
theorem spellsTypes_of_hasTypeIdents
    (h : ClassModel.ofOperation schema package operation = .ok model) :
    SpellsTypes P schema operation model where
  classes cls hcls := by
    rw [List.forall_mem_cons]
    constructor
    · obtain ⟨suffix, hsuffix, heq⟩ := (isNamedFor_of_ofOperation h).exists_suffix hcls
      obtain ⟨ident, hident⟩ := exists_eq_ok_of_isOk (hidents.classes suffix hsuffix)
      exact .of_eq_ok (heq ▸ hident)
    · intro inner hinner
      obtain ⟨-, type, htype, hscalar, heq⟩ :=
        (isMember_of_mem_topClasses h hnames hcls).2 inner hinner
      obtain ⟨ident, hident⟩ := exists_ofTypeName hidents hplain hnames htype hscalar
      exact .of_eq_ok (heq ▸ hident)
  members cls hcls := by
    obtain ⟨hmembers, hnested⟩ := isMember_of_mem_topClasses h hnames hcls
    exact List.forall_mem_cons.mpr ⟨fun param hparam =>
        failsOnly_emitType_of_isMember hkeyed hidents (hmembers param hparam),
      fun inner hinner param hparam =>
        failsOnly_emitType_of_isMember hkeyed hidents ((hnested inner hinner).1 param hparam)⟩
  flattened _ hrebuilds param hparam := failsOnly_emitType_of_isMember hkeyed hidents
    (isMember_flat hnames.fields hrebuilds.resolved (isName_of_rebuilds hnames hrebuilds)
      hrebuilds.flattened param hparam)
  called _ hrebuilds pre := by
    refine callsOnly_arguments (fun type htype hscalar => ?_) hrebuilds.resolved
      hrebuilds.flattened
    obtain ⟨ident, hident⟩ := exists_ofTypeName hidents hplain hnames htype hscalar
    exact ⟨type.name, rfl, hnames.types type htype hscalar, .of_eq_ok hident⟩

/-- **Emission has one cause of failure**: two names of one class become the same identifier. -/
theorem failsOnly_separates (h : ClassModel.ofOperation schema package operation = .ok model)
    {path : PackagePath} (hpackage : PackagePath.parse model.package = .ok path) :
    FailsOnly (fun e => (∃ clash name, e = .namingCollision clash name) ∧
      ∃ cls ∈ model.topClasses, ¬cls.Separates) (emitOperation model) := by
  refine (modelFails_of_spellsTypes hnames h
    (spellsTypes_of_hasTypeIdents hkeyed hidents hnames hplain h) (.of_eq_ok hpackage)
    fun cls hcls hrepeated clash name => ?_).emitOperation
  exact ⟨⟨clash, name, rfl⟩, cls, hcls, hrepeated⟩

end Model

end Emit

end ClientSdk
