import ClientSdk.Proofs.Emit.Package
import ClientSdk.Proofs.Emit.References
import ClientSdk.Proofs.Emit.TypeIdent

/-!
# Names That Code Cannot Be Written With

The code of an operation is made from the identifiers of names. Where the operation and its schema
go by names, only the name of a class can have none: values always have identifiers, and every type
that the code refers to is a scalar, a result or a class. So the code fails for want of an
identifier only if a class has none, and where it does not fail every class has one.

## Main definitions

* `ClassModel.typeNames`: the names of the classes of a model.
* `Schema.Emittable`: what the code of an operation relies on in a schema.
* `Emit.IsUnspelled`: if an error is that a name has no identifier, it is one of some names.

## Main results

* `Emit.spellsTypes_of_emittable`: the types of a model can be written, or a class is not spelled.
* `Emit.failsOnly_unspelled`: the names for want of which an operation has no code.
* `Emit.isLetterLed_of_emitOperation`: the names of the classes of an operation that has code.
-/

namespace ClientSdk

/-- The names of the classes, nested ones included. -/
def ClassModel.typeNames (model : ClassModel) : List String :=
  model.topClasses.flatMap fun cls => (cls :: cls.nested).map (·.name)

/-- A class has one of the names. -/
theorem ClassModel.mem_typeNames_iff {model : ClassModel} {name : String} :
    name ∈ model.typeNames ↔
      ∃ cls ∈ model.topClasses, ∃ decl ∈ cls :: cls.nested, decl.name = name := by
  simp only [typeNames, List.mem_flatMap, List.mem_map]

/-- The types of a schema are those that the code of an operation relies on: they stand under their
names, types of objects have distinct fields and are not called like other types, and these are
scalars of every schema or results. -/
structure Schema.Emittable (schema : Schema) : Prop where
  /-- Every type stands under its name. -/
  keyed : schema.Keyed
  /-- Types of objects have names of their own. -/
  plain : Build.PlainNames schema
  /-- Their fields have distinct names. -/
  distinct : ∀ type ∈ schema.types.values, type.isScalar = false → type.DistinctFields
  /-- The other types are those of every schema. -/
  scalars : ∀ type ∈ schema.types.values, type.isScalar = true →
    type.name ∈ standardScalars ++ mutationResults

namespace Emit

open Build Code

variable {names : List String}

/-- If the error is that a name has no identifier, then it is one of `names`, and no letter is the
first of its characters that are no underscores. -/
def IsUnspelled (names : List String) (e : GenerationError) : Prop :=
  ∀ text, e = .notAnIdentifier text →
    ∃ name ∈ names, ¬Text.IsLetterLed name ∧ text = Text.pascalCase name

/-- An error that is no want of an identifier. -/
theorem isUnspelled_of_ne {e : GenerationError} (h : ∀ text, e ≠ .notAnIdentifier text) :
    IsUnspelled names e := fun text heq => absurd heq (h text)

/-- **The name of a class becomes an identifier, or is not spelled.** -/
theorem failsOnly_ofTypeName {name : String} (hname : Token.isName name = true)
    (hmem : name ∈ names) : FailsOnly (IsUnspelled names) (Ident.ofTypeName name) := by
  intro e herror text heq
  refine ⟨name, hmem, fun hletter => ?_, ?_⟩
  · obtain ⟨ident, hident⟩ := (Ident.exists_ofTypeName_iff hname).mpr hletter
    cases herror.symm.trans hident
  · exact GenerationError.notAnIdentifier.inj
      (heq.symm.trans (Ident.eq_of_ofSpelling_eq_error herror))

/-! ### Models -/

section Model

variable {schema : Schema} {package : String} {operation : Operation} {model : ClassModel}
  (hschema : schema.Emittable) (hnames : GoesByNames schema operation)

include hschema in
/-- The type of a parameter that leads to a scalar or to a class can be written, or a class is not
spelled. -/
theorem failsOnly_emitType_of_leadsInto {classes : List ClassDecl} {param : Parameter}
    (hlead : param.LeadsInto schema classes)
    (hclasses : ∀ cls ∈ classes, FailsOnly (IsUnspelled names) (Ident.ofTypeName cls.name))
    (scope : Scope) : FailsOnly (IsUnspelled names) (emitType scope param.type) := by
  have hscalars : ∀ name ∈ standardScalars ++ mutationResults,
      isResultMember (memberName name) = true ∨
        (Ident.ofTypeName (memberName name)).isOk = true := by decide +kernel
  obtain ⟨type, definition, htype, hget, hclass⟩ := hlead
  have hvalue := Schema.mem_values_of_get? hget
  refine failsOnly_emitType scope ?_
  rw [htype, MemberType.leafName_ofRef, ← hschema.keyed.name_eq hget]
  cases hscalar : definition.isScalar with
  | true =>
      refine (hscalars _ (hschema.scalars definition hvalue hscalar)).imp_right fun hok => ?_
      obtain ⟨ident, hident⟩ := exists_eq_ok_of_isOk hok
      exact .of_eq_ok hident
  | false =>
      obtain ⟨hstandard, hreserved⟩ := hschema.plain definition hvalue hscalar
      obtain ⟨cls, hcls, hsame⟩ := hclass hscalar
      rw [memberName_eq_self hstandard hreserved, ← hsame]
      exact Or.inr (hclasses cls hcls)

variable (h : ClassModel.ofOperation schema package operation = .ok model)

include hnames h

/-- The names of the classes of a model are names. -/
theorem isName_of_mem_typeNames {name : String} (hname : name ∈ model.typeNames) :
    Token.isName name = true := by
  obtain ⟨cls, hcls, decl, hdecl, rfl⟩ := ClassModel.mem_typeNames_iff.mp hname
  rcases List.mem_cons.mp hdecl with rfl | hnested
  · obtain ⟨suffix, hsuffix, heq⟩ := (isNamedFor_of_ofOperation h).exists_suffix hcls
    rw [heq]
    exact isName_append_topSuffix hnames.name hsuffix
  · exact isName_of_mem_nested h hnames hcls hnested

/-- The classes of a model become structures, or one of them is not spelled. -/
theorem failsOnly_ofTypeName_of_mem {cls : ClassDecl} (hcls : cls ∈ model.topClasses) :
    ∀ decl ∈ cls :: cls.nested,
      FailsOnly (IsUnspelled model.typeNames) (Ident.ofTypeName decl.name) := by
  intro decl hdecl
  have hmem := ClassModel.mem_typeNames_iff.mpr ⟨cls, hcls, decl, hdecl, rfl⟩
  exact failsOnly_ofTypeName (isName_of_mem_typeNames hnames h hmem) hmem

include hschema

/-- **The types of a model can be written, or a class is not spelled.** Whatever is no class is a
scalar or a result. -/
theorem spellsTypes_of_emittable :
    SpellsTypes (IsUnspelled model.typeNames) schema operation model where
  classes _ hcls := failsOnly_ofTypeName_of_mem hnames h hcls
  members _ hcls decl hdecl param hparam :=
    failsOnly_emitType_of_leadsInto hschema (leadsInto_of_mem_topClasses h hcls decl hdecl param
      hparam) (List.forall_mem_cons.mp (failsOnly_ofTypeName_of_mem hnames h hcls)).2
  flattened hcls hrebuilds param hparam :=
    failsOnly_emitType_of_leadsInto hschema
      (hrebuilds.leadsInto hschema.distinct hschema.keyed param hparam)
      (List.forall_mem_cons.mp (failsOnly_ofTypeName_of_mem hnames h hcls)).2
  called hcls hrebuilds pre arg harg := by
    refine (hrebuilds.callsOnly hschema.distinct hschema.keyed hschema.plain pre arg harg).mono ?_
    rintro _ ⟨inner, hinner, rfl⟩
    exact ⟨inner.name, rfl, isName_of_mem_nested h hnames hcls hinner,
      failsOnly_ofTypeName_of_mem hnames h hcls inner (List.mem_cons_of_mem _ hinner)⟩

/-- **The code of an operation is not emitted for want of an identifier** only if a class has
none. -/
theorem failsOnly_unspelled : FailsOnly (IsUnspelled model.typeNames) (emitOperation model) := by
  refine (modelFails_of_spellsTypes hnames h (spellsTypes_of_emittable hschema hnames h)
    (failsOnly_parse (isUnspelled_of_ne fun _ => nofun)) fun _ _ _ _ _ => ?_).emitOperation
  exact isUnspelled_of_ne fun _ => nofun

omit hschema in
/-- **The classes of an operation that has code** have identifiers. -/
theorem isLetterLed_of_emitOperation {file : File} (hemit : emitOperation model = .ok file)
    {name : String} (hname : name ∈ model.typeNames) : Text.IsLetterLed name := by
  refine (Ident.exists_ofTypeName_iff (isName_of_mem_typeNames hnames h hname)).mp ?_
  obtain ⟨path, code, -, hcode, -⟩ := emitOperation_eq_ok hemit
  obtain ⟨cls, hcls, decl, hdecl, rfl⟩ := ClassModel.mem_typeNames_iff.mp hname
  rw [← hcode.topClasses] at hcls
  obtain ⟨clsCode, hmem, rfl⟩ := List.mem_map.mp hcls
  have hdeclares := hcode.classes clsCode hmem
  rcases List.mem_cons.mp hdecl with rfl | hnested
  · exact ⟨_, hdeclares.outer.ident⟩
  · rw [← hdeclares.classes] at hnested
    obtain ⟨inner, hinner, rfl⟩ := List.mem_map.mp hnested
    exact ⟨_, (hdeclares.nested inner hinner).ident⟩

end Model

end Emit

end ClientSdk
