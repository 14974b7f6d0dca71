import ClientSdk.Proofs.Emit.Failures
import ClientSdk.Proofs.Emit.Scopes
import ClientSdk.Proofs.Text.Words

/-!
# Names That Become One Identifier

The names of a schema and of an operation are distinct where they are declared, and may become one
identifier all the same. Emission stops where this happens to fields of one class or to classes
nested in one. It does not look at the parameters that the leaves of all variables become, at the
types that each module imports, and at the types that stand in front of the classes of a file.

## Main definitions

* `IsNamedFor`: the classes of a model are called after an operation.

## Main results

* `IsNamedFor.nodup_types_iff`: when the types of a file have distinct names.
* `parametersDistinct_iff_of_ofOperation`: when the functions of a file have distinct parameters.
* `emitOperation_distinct_iff`: which scopes of the code of an operation have a name twice.
-/

namespace ClientSdk

namespace Emit

open Code

/-! ### Types of a file -/

/-- What is put behind the name of an operation to name its classes. -/
def topSuffixes : List String := ["Variables", "Data"]

section Types

variable {operation : String} (hname : Token.isName operation = true)

include hname

/-- A class of an operation goes by a name. -/
theorem isName_append_topSuffix {suffix : String} (hsuffix : suffix ∈ topSuffixes) :
    Token.isName (operation ++ suffix) = true := by
  have hletters : ∀ suffix ∈ topSuffixes, suffix.toList.all Token.isNameContinue = true := by
    decide
  exact Token.isName_append hname (hletters suffix hsuffix)

/-- A name that is continued by letters has only characters of names. -/
theorem all_isNameContinue_append {suffix : String} (hsuffix : suffix ∈ topSuffixes) :
    (operation ++ suffix).toList.all Token.isNameContinue = true :=
  Token.all_isNameContinue (isName_append_topSuffix hname hsuffix)

/-- A class of an operation is not called like what is put behind the other one, like an import or
like a keyword. -/
theorem pascalCase_append_ne {suffix target : String} (hsuffix : suffix ∈ topSuffixes)
    (htarget : target ∈ importedTypes ++ topSuffixes ++ Ident.pathKeywords)
    (hne : suffix ≠ target) : Text.pascalCase (operation ++ suffix) ≠ target := by
  have hplain : ∀ suffix ∈ topSuffixes, '_' ∉ suffix.toList := by decide
  have hends : ∀ suffix ∈ topSuffixes,
      ∀ target ∈ importedTypes ++ topSuffixes ++ Ident.pathKeywords, suffix ≠ target →
        ¬suffix.toList.map Char.toLower <:+ target.toList.map Char.toLower := by decide
  exact Text.pascalCase_append_ne (all_isNameContinue_append hname hsuffix)
    (hplain suffix hsuffix) (hends suffix hsuffix target htarget hne)

/-- A class of an operation is called like what is put behind the name of the operation only if that
name has nothing but underscores. -/
theorem pascalCase_append_eq_iff {suffix : String} (hsuffix : suffix ∈ topSuffixes) :
    Text.pascalCase (operation ++ suffix) = suffix ↔ ∀ c ∈ operation.toList, c = '_' := by
  have hplain : ∀ suffix ∈ topSuffixes, '_' ∉ suffix.toList := by decide
  have hself : ∀ suffix ∈ topSuffixes, Text.pascalCase suffix = suffix := by decide +kernel
  exact Text.pascalCase_append_eq_iff (all_isNameContinue_append hname hsuffix)
    (hplain suffix hsuffix) (hself suffix hsuffix)

/-- The two classes of an operation are called differently. -/
theorem pascalCase_nameOfVariables_ne :
    Text.pascalCase (nameOfVariables operation) ≠ Text.pascalCase (nameOfResponse operation) := by
  intro heq
  have hvars : "Variables".toList.map Char.toLower <:+
      (Text.pascalCase (nameOfVariables operation)).toList.map Char.toLower :=
    Text.suffix_of_pascalCase_append (all_isNameContinue_append hname (by decide)) (by decide)
  have hresponse : "Data".toList.map Char.toLower <:+
      (Text.pascalCase (nameOfResponse operation)).toList.map Char.toLower :=
    Text.suffix_of_pascalCase_append (all_isNameContinue_append hname (by decide)) (by decide)
  rw [heq] at hvars
  exact absurd (List.suffix_of_suffix_length_le hresponse hvars (by decide)) (by decide)

end Types

/-- The classes of a model are called after an operation. -/
structure IsNamedFor (operation : String) (model : ClassModel) : Prop where
  /-- The class of the variables. -/
  vars : ∀ cls ∈ model.variablesClass, cls.name = nameOfVariables operation
  /-- The class of the response. -/
  response : ∀ cls ∈ model.responseClass, cls.name = nameOfResponse operation

namespace IsNamedFor

variable {operation : String} {model : ClassModel} (h : IsNamedFor operation model)

include h

/-- The name of a class is the operation with one of two texts behind it. -/
theorem exists_suffix {cls : ClassDecl} (hcls : cls ∈ model.topClasses) :
    ∃ suffix ∈ topSuffixes, cls.name = operation ++ suffix := by
  rcases List.mem_append.mp hcls with hcls | hcls
  · exact ⟨"Variables", by decide, h.vars cls (Option.mem_toList.mp hcls)⟩
  · exact ⟨"Data", by decide, h.response cls (Option.mem_toList.mp hcls)⟩

variable (hname : Token.isName operation = true)

include hname

/-- The classes of a model are called differently. -/
theorem nodup_pascalCase : (model.topClasses.map fun cls => Text.pascalCase cls.name).Nodup := by
  have hne := pascalCase_nameOfVariables_ne hname
  rw [ClassModel.topClasses]
  cases hvars : model.variablesClass with
  | none => cases model.responseClass <;> simp
  | some vars =>
      cases hresponse : model.responseClass with
      | none => simp
      | some response =>
          rw [← h.vars vars hvars, ← h.response response hresponse] at hne
          simpa using hne

/-- A class is called like a type in front of it only if the operation has nothing but
underscores. -/
theorem mem_iff {cls : ClassDecl} (hcls : cls ∈ model.topClasses) :
    Text.pascalCase cls.name ∈ importedTypes ++ topSuffixes ↔
      ∀ c ∈ operation.toList, c = '_' := by
  obtain ⟨suffix, hsuffix, heq⟩ := h.exists_suffix hcls
  rw [heq, ← pascalCase_append_eq_iff hname hsuffix]
  constructor
  · intro hmem
    by_contra hne
    exact pascalCase_append_ne hname hsuffix (List.mem_append_left _ hmem) (Ne.symm hne) rfl
  · intro hsame
    rw [hsame]
    exact List.mem_append_right _ hsuffix

/-- The identifiers of the classes are spelled in Pascal case. -/
theorem map_text_eq {package : PackagePath} {code : OperationCode}
    (hcode : OperationCode.Declares model package code) :
    (code.classes.map (·.outer.ident)).map (·.text) =
      model.topClasses.map fun cls => Text.pascalCase cls.name := by
  rw [← hcode.topClasses, List.map_map, List.map_map]
  refine List.map_congr_left fun cls hcls => ?_
  refine Ident.text_eq_of_notMem (hcode.classes cls hcls).outer.ident fun hmem => ?_
  have htop := hcode.mem_topClasses hcls
  obtain ⟨suffix, hsuffix, heq⟩ := h.exists_suffix htop
  have hkeyword : ∀ suffix ∈ topSuffixes, suffix ∉ Ident.pathKeywords := by decide
  refine pascalCase_append_ne hname hsuffix (List.mem_append_right _ hmem) ?_ (heq ▸ rfl)
  exact fun hsame => hkeyword suffix hsuffix (hsame ▸ hmem)

/-- **When the types of a file have distinct names**: when it declares none but those in front of
the classes, or the name of the operation has more than underscores. -/
theorem nodup_types_iff {package : PackagePath} {code : OperationCode}
    (hcode : OperationCode.Declares model package code) :
    ((reservedTypes ++ code.classes.map (·.outer.ident)).map (·.text)).Nodup ↔
      (model.topClasses ≠ [] → ∃ c ∈ operation.toList, c ≠ '_') := by
  have hreserved : reservedTypes.map (·.text) = importedTypes ++ topSuffixes := rfl
  rw [List.map_append, h.map_text_eq hname hcode, hreserved, List.nodup_append,
    and_iff_right (by decide), and_iff_right (h.nodup_pascalCase hname)]
  constructor
  · intro hne hclasses
    obtain ⟨cls, hcls⟩ := List.exists_mem_of_ne_nil _ hclasses
    by_contra hall
    push Not at hall
    exact hne _ ((h.mem_iff hname hcls).mpr hall) _ (List.mem_map_of_mem hcls) rfl
  · rintro hmore target htarget _ hmem rfl
    obtain ⟨cls, hcls, rfl⟩ := List.mem_map.mp hmem
    obtain ⟨c, hc, hne⟩ := hmore (List.ne_nil_of_mem hcls)
    exact hne ((h.mem_iff hname hcls).mp htarget c hc)

end IsNamedFor

/-! ### Models of operations -/

/-- Emitted parameters have distinct names when their identifiers are distinct. -/
theorem nodup_parameters_iff {scope : Scope} {params : List Parameter}
    {emitted : List (Ident × Ty)} (h : emitParameters scope params = .ok emitted) :
    (emitted.map (·.1.text)).Nodup ↔
      (params.map fun param => Ident.ofValueName param.name).Nodup := by
  have hidents : List.Forall₂ (fun (param : Parameter) ident =>
      Ident.ofValueName param.name = .ok ident) params (emitted.map Prod.fst) := by
    rw [List.forall₂_map_right_iff]
    refine (mapM_eq_ok_iff.mp h).imp ?_
    rintro param _ hparam
    simp only [bind_eq_ok_iff, pure_eq_ok_iff] at hparam
    obtain ⟨ident, hident, type, -, rfl⟩ := hparam
    exact hident
  rw [nodup_map_iff_of_forall₂ hidents, ← Ident.nodup_map_text_iff, List.map_map]
  · rfl
  · intro ident hident
    obtain ⟨param, -, hparam⟩ := exists_left_of_forall₂ hidents hident
    exact ⟨_, hparam⟩

section Model

variable {schema : Schema} {package : String} {operation : Operation} {model : ClassModel}
  (hmodel : ClassModel.ofOperation schema package operation = .ok model)

include hmodel

/-- The classes of a model are called after its operation. -/
theorem isNamedFor_of_ofOperation : IsNamedFor operation.name model := by
  obtain ⟨vars, fields, -, -, hvariables, hresponse⟩ := Build.exists_parts hmodel
  constructor
  · intro cls hcls
    cases hvariables with
    | none hnone => cases hnone.symm.trans hcls
    | some _ _ _ hclass hname =>
        obtain rfl := Option.some.inj (hclass.symm.trans hcls)
        exact hname
  · intro cls hcls
    cases hresponse with
    | none hnone => cases hnone.symm.trans hcls
    | some _ _ hclass hname =>
        obtain rfl := Option.some.inj (hclass.symm.trans hcls)
        exact hname

/-- The other constructors of a class are the code of those that rebuild the variables. -/
theorem exists_rebuilds_of_mem_others {path : PackagePath} {code : OperationCode}
    (h : OperationCode.Declares model path code) {cls : ClassCode} (hcls : cls ∈ code.classes)
    {function : Function} (hfunction : function ∈ cls.others) :
    ∃ bindings visited flat,
      Build.Rebuilds schema operation model cls.outer.cls bindings visited flat ∧
      flattenedConstructor (cls.outside path)
        { parameters := flat.parameters, arguments := flat.arguments "" } = .ok function := by
  obtain ⟨constructor, hconstructor, hemit⟩ :=
    exists_left_of_forall₂ (h.classes cls hcls).others hfunction
  have htop := h.mem_topClasses hcls
  obtain ⟨bindings, visited, flat, hrebuilds, rfl⟩ :=
    exists_rebuilds_of_mem_secondary hmodel htop hconstructor
  exact ⟨bindings, visited, flat, hrebuilds, hemit⟩

/-- The functions that take flattened parameters are emitted from those of the helper. -/
theorem emitParameters_of_declares {path : PackagePath} {code : OperationCode}
    (h : OperationCode.Declares model path code) {function : Function}
    (hfunction : function ∈ code.classes.flatMap (·.others) ++ (code.vars.map Prod.snd).toList) :
    ∃ scope, emitParameters scope model.helperParameters = .ok function.parameters := by
  rcases List.mem_append.mp hfunction with hother | hhelper
  · obtain ⟨cls, hcls, hother⟩ := List.mem_flatMap.mp hother
    obtain ⟨bindings, visited, flat, hrebuilds, hemit⟩ :=
      exists_rebuilds_of_mem_others hmodel h hcls hother
    simp only [flattenedConstructor, bind_eq_ok_iff, pure_eq_ok_iff] at hemit
    obtain ⟨parameters, hemitted, _, -, rfl⟩ := hemit
    rw [hrebuilds.helperParameters]
    exact ⟨_, hemitted⟩
  · rw [Option.mem_toList, Option.map_eq_some_iff] at hhelper
    obtain ⟨⟨cls, _⟩, hvars, rfl⟩ := hhelper
    obtain ⟨parameters, arguments, hemitted, -, rfl⟩ := h.helper cls _ hvars
    exact ⟨_, hemitted⟩

/-- **When the functions of a file have distinct parameters**: when those of the helper become
distinct identifiers. -/
theorem parametersDistinct_iff_of_ofOperation {file : File} {path : PackagePath}
    {code : OperationCode} (h : OperationCode.Declares model path code)
    (hfile : file.items = code.items model) :
    file.ParametersDistinct ↔
      (model.helperParameters.map fun param => Ident.ofValueName param.name).Nodup := by
  rw [h.parametersDistinct_iff hfile]
  constructor
  · intro hall
    cases hvars : code.vars with
    | none =>
        have hnone : model.variablesClass = none := by
          rw [← h.vars, hvars]
          rfl
        rw [(Build.helper_of_ofOperation hmodel hnone).1]
        exact List.nodup_nil
    | some vars =>
        have hmem : vars.2 ∈ code.classes.flatMap (·.others) ++
            (code.vars.map Prod.snd).toList := by
          rw [hvars]
          exact List.mem_append_right _ List.mem_cons_self
        obtain ⟨scope, hemit⟩ := emitParameters_of_declares hmodel h hmem
        exact (nodup_parameters_iff hemit).mp (hall vars.2 hmem)
  · intro hnodup function hfunction
    obtain ⟨scope, hemit⟩ := emitParameters_of_declares hmodel h hfunction
    exact (nodup_parameters_iff hemit).mpr hnodup

end Model

end Emit

open Emit

/-- **Which scopes of generated code have a name twice.** Where the code of an operation is
emitted, fields are distinct in every structure, and the identifiers of fields and nested classes
are distinct in every class. Parameters are distinct exactly when the flattened ones become distinct
identifiers. Types are distinct exactly when no nested class is called like an import in Pascal
case, and the operation has more in its name than underscores, if it has any class. Where the code
is not emitted, two names become one identifier, unless the package is no path or a name becomes no
identifier. -/
theorem emitOperation_distinct_iff {schema : Schema} {package : String} {operation : Operation}
    {model : ClassModel}
    (hschema : ∀ type ∈ schema.types.values, type.isScalar = false →
      Token.isName type.name = true)
    (hname : Token.isName operation.name = true)
    (h : ClassModel.ofOperation schema package operation = .ok model) :
    (∀ file, emitOperation model = .ok file →
      file.FieldsDistinct ∧ (∀ cls ∈ model.topClasses, cls.Separates) ∧
      (file.ParametersDistinct ↔
        (model.helperParameters.map fun param => Ident.ofValueName param.name).Nodup) ∧
      (file.TypeNamesDistinct ↔
        (∀ cls ∈ model.topClasses, ∀ inner ∈ cls.nested,
          Text.pascalCase inner.name ∉ ["Deserialize", "Serialize"]) ∧
        (model.topClasses ≠ [] → ∃ c ∈ operation.name.toList, c ≠ '_'))) ∧
    ∀ e, emitOperation model = .error e →
      e.kind = "NamingCollision" ∨ e = .invalidPackage model.package ∨
        ∃ text, e = .notAnIdentifier text := by
  constructor
  · intro file hfile
    obtain ⟨path, code, -, hcode, hitems⟩ := emitOperation_eq_ok hfile
    refine ⟨hcode.fieldsDistinct hitems, ?_, parametersDistinct_iff_of_ofOperation h hcode hitems,
      ?_⟩
    · rw [← hcode.topClasses, List.forall_mem_map]
      exact fun cls hcls => (hcode.classes cls hcls).separates
    · rw [hcode.typeNamesDistinct_iff hitems,
        (isNamedFor_of_ofOperation h).nodup_types_iff hname hcode, and_comm]
      rfl
  · intro e he
    obtain ⟨hhelper, hclasses⟩ := isConstructor_of_ofOperation h hschema hname
    rcases failsOnly_emitOperation hhelper hclasses e he with (hkind | htext) | hpackage
    · exact Or.inl hkind
    · exact Or.inr (Or.inr htext)
    · exact Or.inr (Or.inl hpackage)

/-- Loans and fees that fall due, with two spellings of the date. -/
def loanSchema : Schema where
  types := .ofList (standardScalars.map .givenScalar ++ [
    { name := "Loan", kind := .input, fields := [
        { name := "dueDate", type := .named "Int" true }] },
    { name := "Fee", kind := .input, fields := [
        { name := "due_date", type := .named "Int" true }] }])
  query := { name := "Query", fields := [{ name := "find", type := .named "Int" true }] }
  mutation := { name := "Mutation" }

/-- Pays a fee. -/
def payFee : Operation where
  name := "Pay"
  kind := .mutation
  vars := [{ name := "fee", type := .named "Fee" true }]

/-- No scope of the code that pays a fee has a name twice. -/
theorem emitOperation_distinct_iff_payFee :
    ∃ model file, ClassModel.ofOperation loanSchema "crate" payFee = .ok model ∧
      emitOperation model = .ok file ∧ file.FieldsDistinct ∧ file.ParametersDistinct ∧
      file.TypeNamesDistinct := by
  obtain ⟨model, hmodel, hok, hparams, hnested⟩ :
      ∃ model, ClassModel.ofOperation loanSchema "crate" payFee = .ok model ∧
        (emitOperation model).isOk = true ∧
        (model.helperParameters.map fun param => Ident.ofValueName param.name).Nodup ∧
        ∀ cls ∈ model.topClasses, ∀ inner ∈ cls.nested,
          Text.pascalCase inner.name ∉ ["Deserialize", "Serialize"] :=
    ⟨_, rfl, by decide +kernel⟩
  obtain ⟨file, hfile⟩ := exists_eq_ok_of_isOk hok
  obtain ⟨hfields, -, hparameters, htypes⟩ :=
    (emitOperation_distinct_iff (by decide) (by decide) hmodel).1 file hfile
  exact ⟨model, file, hmodel, hfile, hfields, hparameters.mpr hparams,
    htypes.mpr ⟨hnested, fun _ => ⟨'P', by decide, by decide⟩⟩⟩

/-- Finds something by a loan and a fee. -/
def findLoan : Operation where
  name := "Find"
  kind := .query
  vars := [
    { name := "loan", type := .named "Loan" true },
    { name := "fee", type := .named "Fee" true }]
  selections := [.field "find" none []]

/-- **A function has two parameters with one name**, if two fields of different types have names
that become one identifier. -/
theorem emitOperation_repeats_dueDate :
    ∃ model file, ClassModel.ofOperation loanSchema "crate" findLoan = .ok model ∧
      emitOperation model = .ok file ∧ ¬file.ParametersDistinct := by
  obtain ⟨model, hmodel, hok, hrepeated⟩ :
      ∃ model, ClassModel.ofOperation loanSchema "crate" findLoan = .ok model ∧
        (emitOperation model).isOk = true ∧
        ¬(model.helperParameters.map fun param => Ident.ofValueName param.name).Nodup :=
    ⟨_, rfl, by decide +kernel⟩
  obtain ⟨file, hfile⟩ := exists_eq_ok_of_isOk hok
  obtain ⟨path, code, -, hcode, hitems⟩ := emitOperation_eq_ok hfile
  refine ⟨model, file, hmodel, hfile, fun hdistinct => hrepeated ?_⟩
  exact (parametersDistinct_iff_of_ofOperation hmodel hcode hitems).mp hdistinct

end ClientSdk
