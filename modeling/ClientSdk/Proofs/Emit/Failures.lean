import ClientSdk.Proofs.Build.Calls
import ClientSdk.Proofs.Emit.Classes
import ClientSdk.Proofs.Text.Names
import ClientSdk.Proofs.TypeRef

/-!
# Operations Without Code

For what the code of an operation is not emitted. Each step of emission fails where two names become
one identifier, where a name becomes none, or where the name of a constructor has no path. The last
does not happen if names have no dots, since constructors are called like types, alone or behind an
operation and a class of it.

Which failures are possible depends on what is known of the names, so each step is about an
arbitrary property of failures. A failure has it if the failures of the parts have it.

## Main definitions

* `IsConstructor`: the name of a constructor has a path.
* `ModelFails`: the parts of a model can be written, or the failure has a property.
* `IsNaming`: emission fails since names become one identifier, or none.

## Main results

* `dottedParts_append`, `dottedParts_of_notMem`: the parts of a name.
* `ModelFails.emitOperation`: a model can be written if its parts can be.
* `failsOnly_emitOperation`: the causes for which an operation has no code.
* `isConstructor_of_ofOperation`: the constructors that a model calls have paths.
-/

namespace ClientSdk

namespace Emit

open Code

/-! ### Paths of constructors -/

/-- The name of a constructor is that of a type, or of a type in a class of an operation. -/
def IsConstructor (name : String) : Prop :=
  (dottedParts name).length = 1 ∨ (dottedParts name).length = 3

theorem dottedParts_go_append (part front rest : List Char) (h : '.' ∉ front) :
    dottedParts.go part (front ++ '.' :: rest) =
      String.ofList (part.reverse ++ front) :: dottedParts.go [] rest := by
  induction front generalizing part with
  | nil => rw [List.nil_append, dottedParts.go, if_pos rfl, List.append_nil]
  | cons c front ih =>
      rw [List.mem_cons, not_or] at h
      rw [List.cons_append, dottedParts.go, if_neg (Ne.symm h.1), ih _ h.2, List.reverse_cons,
        List.append_assoc, List.singleton_append]

/-- A name in front of a dot is the first part. -/
theorem dottedParts_append {name : String} (h : '.' ∉ name.toList) (rest : String) :
    dottedParts (name ++ "." ++ rest) = name :: dottedParts rest := by
  have hdot : (name ++ "." ++ rest).toList = name.toList ++ '.' :: rest.toList := by
    simp [String.toList_append]
  rw [dottedParts, hdot, dottedParts_go_append [] _ _ h, List.reverse_nil, List.nil_append,
    String.ofList_toList, dottedParts]

/-- A name without dots is its only part. -/
theorem dottedParts_of_notMem {name : String} (h : '.' ∉ name.toList) :
    dottedParts name = [name] := by
  have hgo : ∀ cs part : List Char, '.' ∉ cs →
      dottedParts.go part cs = [String.ofList (part.reverse ++ cs)] := by
    intro cs
    induction cs with
    | nil => exact fun part _ => by rw [dottedParts.go, List.append_nil]
    | cons c cs ih =>
        intro part hcs
        rw [List.mem_cons, not_or] at hcs
        rw [dottedParts.go, if_neg (Ne.symm hcs.1), ih _ hcs.2, List.reverse_cons,
          List.append_assoc, List.singleton_append]
  rw [dottedParts, hgo _ _ h, List.reverse_nil, List.nil_append, String.ofList_toList]

/-- A name has no dots. -/
theorem dot_notMem_of_isName {name : String} (h : Token.isName name = true) :
    '.' ∉ name.toList := by
  intro hmem
  have hdot := List.all_eq_true.mp (Token.all_isNameContinue h) '.' hmem
  exact absurd hdot (by decide)

/-- The parts of a name behind two others are these three names. -/
theorem dottedParts_qualified {operation cls type : String}
    (hoperation : Token.isName operation = true) (hcls : Token.isName cls = true)
    (htype : Token.isName type = true) :
    dottedParts (operation ++ "." ++ cls ++ "." ++ type) = [operation, cls, type] := by
  rw [String.append_assoc, String.append_assoc, ← @String.append_assoc cls,
    dottedParts_append (dot_notMem_of_isName hoperation),
    dottedParts_append (dot_notMem_of_isName hcls),
    dottedParts_of_notMem (dot_notMem_of_isName htype)]

/-! ### Causes of failure -/

section Steps

variable {P : GenerationError → Prop}

/-- The name and the type of the parameter can be written, or the failure has the property. -/
structure ParameterFails (P : GenerationError → Prop) (param : Parameter) : Prop where
  /-- The identifier of the parameter. -/
  name : FailsOnly P (Ident.ofValueName param.name)
  /-- Its type, from wherever it is referred to. -/
  type : ∀ scope, FailsOnly P (emitType scope param.type)

/-- A function with the parameters that passes on the arguments can be written, or the failure has
the property. -/
structure CallFails (P : GenerationError → Prop) (params : List Parameter)
    (args : List Argument) : Prop where
  /-- The parameters of the function. -/
  parameters : ∀ param ∈ params, ParameterFails P param
  /-- The arguments that it passes on. -/
  arguments : ∀ arg ∈ args, ∀ scope, FailsOnly P (emitArgument scope arg)

/-- The structure of the class can be written, or the failure has the property. -/
structure StructFails (P : GenerationError → Prop) (decl : ClassDecl) : Prop where
  /-- The identifier of the structure. -/
  name : FailsOnly P (Ident.ofTypeName decl.name)
  /-- Its fields. -/
  parameters : ∀ param ∈ decl.parameters, ParameterFails P param
  /-- Two fields with one identifier. -/
  collision : ¬(decl.parameters.map fun param => Ident.ofValueName param.name).Nodup →
    ∀ name, P (.namingCollision (.structField decl.name) name)

/-- The class can be written with its module, or the failure has the property. -/
structure ClassFails (P : GenerationError → Prop) (cls : ClassDecl) : Prop where
  /-- The identifier of the module. -/
  nestedModule : FailsOnly P (Ident.ofValueName cls.name)
  /-- The structures of the class and of its nested classes. -/
  decls : ∀ decl ∈ cls :: cls.nested, StructFails P decl
  /-- Two nested classes with one identifier. -/
  collision : ¬(cls.nested.map fun inner => Ident.ofTypeName inner.name).Nodup →
    ∀ name, P (.namingCollision (.nestedClass cls.name) name)
  /-- Its other constructors. -/
  secondary : ∀ constructor ∈ cls.secondary,
    CallFails P constructor.parameters constructor.arguments

/-- The model can be written, or the failure has the property. -/
structure ModelFails (P : GenerationError → Prop) (model : ClassModel) : Prop where
  /-- The package of the model. -/
  package : FailsOnly P (PackagePath.parse model.package)
  /-- The classes of the variables and the response. -/
  classes : ∀ cls ∈ model.topClasses, ClassFails P cls
  /-- The function that builds the variables. -/
  helper : CallFails P model.helperParameters model.helperArguments

/-- The path of a package is read, or the package is none. -/
theorem failsOnly_parse {package : String} (h : P (.invalidPackage package)) :
    FailsOnly P (PackagePath.parse package) := by
  rw [PackagePath.parse]
  split
  · exact .ok _
  · exact .error h

/-- A type is written where its name can be. -/
theorem failsOnly_emitType {type : MemberType} (scope : Scope)
    (h : isResultMember type.leafName = true ∨ FailsOnly P (Ident.ofTypeName type.leafName)) :
    FailsOnly P (emitType scope type) := by
  induction type with
  | named name nullable =>
      rw [emitType, typeOfName]
      refine .bind ?_ fun _ _ => .pure _
      split_ifs with _ _ _ _ hresult
      all_goals first
        | exact .ok _
        | exact .bind (h.resolve_left hresult) fun _ _ => .pure _
  | list element nullable ih =>
      rw [emitType]
      exact .bind (ih h) fun _ _ => .pure _

theorem failsOnly_emitParameters (scope : Scope) {params : List Parameter}
    (h : ∀ param ∈ params, ParameterFails P param) :
    FailsOnly P (emitParameters scope params) :=
  .mapM fun param hparam => .bind (h param hparam).name fun _ _ =>
    .bind ((h param hparam).type scope) fun _ _ => .pure _

/-- A constructor has a path if its parts have identifiers, and there are as many as there can
be. -/
theorem failsOnly_pathOfConstructor (scope : Scope) {name : String}
    (hvalue : ∀ part ∈ dottedParts name, FailsOnly P (Ident.ofValueName part))
    (htype : ∀ part ∈ dottedParts name, FailsOnly P (Ident.ofTypeName part))
    (hparts : ¬IsConstructor name → P (.unresolvedConstructor name)) :
    FailsOnly P (pathOfConstructor scope name) := by
  rw [pathOfConstructor]
  split
  · rename_i type heq
    exact .bind (htype type (by simp [heq])) fun _ _ => .pure _
  · rename_i operation cls type heq
    exact .bind (hvalue operation (by simp [heq])) fun _ _ =>
      .bind (hvalue cls (by simp [heq])) fun _ _ =>
      .bind (htype type (by simp [heq])) fun _ _ => .pure _
  · rename_i hone hthree
    refine .error (hparts ?_)
    rintro (h | h)
    · obtain ⟨part, hparts⟩ := List.length_eq_one_iff.mp h
      exact hone part hparts
    · obtain ⟨part, part', part'', hparts⟩ := List.length_eq_three.mp h
      exact hthree part part' part'' hparts

theorem failsOnly_emitArguments {scope : Scope} {args : List Argument}
    (h : ∀ arg ∈ args, FailsOnly P (emitArgument scope arg)) :
    FailsOnly P (emitArguments scope args) := by
  induction args with
  | nil =>
      rw [emitArguments]
      exact .ok _
  | cons arg args ih =>
      obtain ⟨hfirst, hrest⟩ := List.forall_mem_cons.mp h
      rw [emitArguments]
      exact .bind hfirst fun _ _ => .bind (ih hrest) fun _ _ => .pure _

/-- What a member of a list of arguments reads is read by the list. -/
theorem sources_subset {args : List Argument} {arg : Argument} (h : arg ∈ args) :
    arg.sources ⊆ Argument.sourcesOfAll args := by
  induction args with
  | nil => exact absurd h List.not_mem_nil
  | cons first args ih =>
      rw [Argument.sourcesOfAll]
      rcases List.mem_cons.mp h with rfl | hmem
      · exact List.subset_append_left _ _
      · exact List.Subset.trans (ih hmem) (List.subset_append_right _ _)

/-- An argument is emitted if the parameters that it reads have identifiers, and the constructors
that it calls have paths. -/
theorem failsOnly_emitArgument {scope : Scope} {arg : Argument}
    (hcalls : arg.CallsOnly fun function => FailsOnly P (pathOfConstructor scope function))
    (hsources : ∀ source ∈ arg.sources, FailsOnly P (Ident.ofValueName source)) :
    FailsOnly P (emitArgument scope arg) := by
  induction hcalls with
  | parameter name source isLast =>
      rw [Argument.sources, List.forall_mem_singleton] at hsources
      rw [emitArgument]
      exact .bind hsources fun _ _ => .pure _
  | call hfunction _ ih =>
      rw [Argument.sources] at hsources
      rw [emitArgument]
      exact .bind hfunction fun _ _ => .bind (failsOnly_emitArguments fun arg harg =>
        ih arg harg fun source hsource => hsources source (sources_subset harg hsource))
        fun _ _ => .pure _

/-- Fields are emitted if the parameters can be, and their identifiers are distinct. Induction on
the parameters: the identifiers that are taken are those of the ones before. -/
theorem failsOnly_emitFields {scope : Scope} {owner : String} {taken : List Ident}
    {params : List Parameter} (h : ∀ param ∈ params, ParameterFails P param)
    (hcollision : ¬(taken.map Except.ok ++
      params.map fun param : Parameter => Ident.ofValueName param.name).Nodup →
        ∀ name, P (.namingCollision (.structField owner) name)) :
    FailsOnly P (emitFields scope owner taken params) := by
  induction params generalizing taken with
  | nil =>
      rw [emitFields]
      exact .ok _
  | cons param params ih =>
      obtain ⟨hparam, hparams⟩ := List.forall_mem_cons.mp h
      rw [emitFields]
      refine .bind hparam.name fun ident hident => ?_
      rw [List.map_cons, hident] at hcollision
      split
      · rename_i hmem
        refine .error (hcollision (fun hnodup => ?_) _)
        exact List.disjoint_of_nodup_append hnodup (List.mem_map_of_mem hmem) List.mem_cons_self
      · refine .bind (hparam.type scope) fun _ _ => .bind (ih hparams fun hnodup => ?_)
          fun _ _ => .pure _
        exact hcollision fun h => hnodup (List.perm_middle.nodup_iff.mp h)

theorem failsOnly_emitStruct {scope : Scope} {doc : String} {decl : ClassDecl}
    {others : List Function} (h : StructFails P decl) :
    FailsOnly P (emitStruct scope doc decl.name decl.parameters others) :=
  .bind h.name fun _ _ => .bind (failsOnly_emitFields h.parameters h.collision) fun _ _ => .pure _

/-- Nested classes are emitted if their structures can be, and their identifiers are distinct. -/
theorem failsOnly_emitNested {scope : Scope} {owner : String} {taken : List Ident}
    {classes : List ClassDecl} (h : ∀ cls ∈ classes, StructFails P cls)
    (hcollision : ¬(taken.map Except.ok ++
      classes.map fun cls : ClassDecl => Ident.ofTypeName cls.name).Nodup →
        ∀ name, P (.namingCollision (.nestedClass owner) name)) :
    FailsOnly P (emitNested scope owner taken classes) := by
  induction classes generalizing taken with
  | nil =>
      rw [emitNested]
      exact .ok _
  | cons cls classes ih =>
      obtain ⟨hcls, hclasses⟩ := List.forall_mem_cons.mp h
      rw [emitNested]
      refine .bind hcls.name fun ident hident => ?_
      rw [List.map_cons, hident] at hcollision
      split
      · rename_i hmem
        refine .error (hcollision (fun hnodup => ?_) _)
        exact List.disjoint_of_nodup_append hnodup (List.mem_map_of_mem hmem) List.mem_cons_self
      · refine .bind (failsOnly_emitStruct hcls) fun _ _ => .bind (ih hclasses fun hnodup => ?_)
          fun _ _ => .pure _
        exact hcollision fun h => hnodup (List.perm_middle.nodup_iff.mp h)

theorem failsOnly_emitClass {package : PackagePath} {doc : String} {cls : ClassDecl}
    (h : ClassFails P cls) : FailsOnly P (emitClass package doc cls) := by
  obtain ⟨hcls, hnested⟩ := List.forall_mem_cons.mp h.decls
  rw [emitClass]
  refine .bind h.nestedModule fun nestedModule _ => ?_
  refine .bind (.mapM fun constructor hconstructor => ?_) fun others _ => ?_
  · have hcall := h.secondary constructor hconstructor
    exact .bind (failsOnly_emitParameters _ hcall.parameters) fun _ _ =>
      .bind (failsOnly_emitArguments fun arg harg => hcall.arguments arg harg _) fun _ _ => .pure _
  · refine .bind (failsOnly_emitStruct hcls) fun items _ => ?_
    split
    · exact .pure _
    · exact .bind (failsOnly_emitNested hnested h.collision) fun _ _ =>
        .bind hcls.name fun _ _ => .pure _

/-- **The code of an operation is emitted if all parts of its model can be written**, and fails for
the causes that one of them has. -/
theorem ModelFails.emitOperation {model : ClassModel} (h : ModelFails P model) :
    FailsOnly P (emitOperation model) := by
  have hvars : ∀ package, FailsOnly P (emitVariables package model) := by
    intro package
    rw [emitVariables]
    split
    · exact .ok _
    · rename_i cls hcls
      have hclass := h.classes cls (List.mem_append_left _ (Option.mem_toList.mpr hcls))
      exact .bind (hclass.decls cls List.mem_cons_self).name fun _ _ =>
        .bind (failsOnly_emitClass hclass) fun _ _ => .bind hclass.nestedModule fun _ _ =>
        .bind (failsOnly_emitParameters _ h.helper.parameters) fun _ _ =>
        .bind (failsOnly_emitArguments fun arg harg => h.helper.arguments arg harg _)
          fun _ _ => .pure _
  have hresponse : ∀ package, FailsOnly P (emitResponse package model) := by
    intro package
    rw [emitResponse]
    split
    · exact .ok _
    · rename_i cls hcls
      have hclass := h.classes cls (List.mem_append_right _ (Option.mem_toList.mpr hcls))
      exact .bind (hclass.decls cls List.mem_cons_self).name fun _ _ =>
        .bind (failsOnly_emitClass hclass) fun _ _ => .pure _
  rw [ClientSdk.emitOperation]
  exact .bind h.package fun package _ => .bind (hvars package) fun _ _ =>
    .bind (hresponse package) fun _ _ => .pure _

/-- Where names that become no identifier and names that become one are causes, and the constructors
that are called have paths, the only other cause is the package. -/
theorem modelFails_of_naming {model : ClassModel} (htext : ∀ text, P (.notAnIdentifier text))
    (hcollision : ∀ clash name, P (.namingCollision clash name))
    (hpackage : FailsOnly P (PackagePath.parse model.package))
    (hhelper : ∀ arg ∈ model.helperArguments, arg.CallsOnly fun name =>
      ¬IsConstructor name → P (.unresolvedConstructor name))
    (hclasses : ∀ cls ∈ model.topClasses, ∀ constructor ∈ cls.secondary,
      ∀ arg ∈ constructor.arguments, arg.CallsOnly fun name =>
        ¬IsConstructor name → P (.unresolvedConstructor name)) :
    ModelFails P model := by
  have hident : ∀ text, FailsOnly P (Ident.ofSpelling text) := by
    intro text e h
    rw [Ident.eq_of_ofSpelling_eq_error h]
    exact htext text
  have hparam : ∀ param, ParameterFails P param := fun param =>
    ⟨hident _, fun scope => failsOnly_emitType scope (Or.inr (hident _))⟩
  have hcall : ∀ {params args}, (∀ arg ∈ args, Argument.CallsOnly (fun name =>
      ¬IsConstructor name → P (.unresolvedConstructor name)) arg) → CallFails P params args :=
    fun hargs => ⟨fun param _ => hparam param, fun arg harg scope => failsOnly_emitArgument
      ((hargs arg harg).mono fun _ hparts => failsOnly_pathOfConstructor scope
        (fun _ _ => hident _) (fun _ _ => hident _) hparts) fun _ _ => hident _⟩
  refine ⟨hpackage, fun cls hcls => ?_, hcall hhelper⟩
  exact ⟨hident _, fun decl _ => ⟨hident _, fun param _ => hparam param, fun _ => hcollision _⟩,
    fun _ => hcollision _, fun constructor hconstructor =>
      hcall (hclasses cls hcls constructor hconstructor)⟩

end Steps

/-- Two names become one identifier, or a name becomes none. -/
def IsNaming (e : GenerationError) : Prop :=
  e.kind = "NamingCollision" ∨ ∃ text, e = .notAnIdentifier text

/-- **The code of an operation is not emitted** where the package is no path, where two names become
one identifier, or where a name becomes none, if all constructors have paths. -/
theorem failsOnly_emitOperation {model : ClassModel}
    (hhelper : ∀ arg ∈ model.helperArguments, arg.CallsOnly IsConstructor)
    (hclasses : ∀ cls ∈ model.topClasses, ∀ constructor ∈ cls.secondary,
      ∀ arg ∈ constructor.arguments, arg.CallsOnly IsConstructor) :
    FailsOnly (fun e => IsNaming e ∨ e = .invalidPackage model.package) (emitOperation model) := by
  refine (modelFails_of_naming (fun text => Or.inl (Or.inr ⟨text, rfl⟩))
    (fun _ _ => Or.inl (Or.inl rfl)) (failsOnly_parse (Or.inr rfl)) ?_ ?_).emitOperation
  · exact fun arg harg => (hhelper arg harg).mono fun _ hname hparts => absurd hname hparts
  · exact fun cls hcls constructor hconstructor arg harg =>
      (hclasses cls hcls constructor hconstructor arg harg).mono
        fun _ hname hparts => absurd hname hparts

/-- Only the class of the variables has other constructors, which rebuild the variables. -/
theorem exists_rebuilds_of_mem_secondary {schema : Schema} {package : String}
    {operation : Operation} {model : ClassModel}
    (h : ClassModel.ofOperation schema package operation = .ok model) {cls : ClassDecl}
    (hcls : cls ∈ model.topClasses) {constructor : FlatConstructor}
    (hconstructor : constructor ∈ cls.secondary) :
    ∃ bindings visited flat, Build.Rebuilds schema operation model cls bindings visited flat ∧
      constructor = { parameters := flat.parameters, arguments := flat.arguments "" } := by
  rcases List.mem_append.mp hcls with hvars | hresponse
  · obtain ⟨bindings, visited, flat, hrebuilds⟩ :=
      Build.exists_rebuilds h (Option.mem_toList.mp hvars)
    exact ⟨bindings, visited, flat, hrebuilds, hrebuilds.secondary constructor hconstructor⟩
  · rw [Build.secondary_of_ofOperation h (Option.mem_toList.mp hresponse)] at hconstructor
    cases hconstructor

/-- **All constructors that are called have paths**, where types of objects and the operation have
names. -/
theorem isConstructor_of_ofOperation {schema : Schema} {package : String} {operation : Operation}
    {model : ClassModel} (hmodel : ClassModel.ofOperation schema package operation = .ok model)
    (hschema : ∀ type ∈ schema.types.values, type.isScalar = false →
      Token.isName type.name = true)
    (hname : Token.isName operation.name = true) :
    (∀ arg ∈ model.helperArguments, arg.CallsOnly IsConstructor) ∧
      ∀ cls ∈ model.topClasses, ∀ constructor ∈ cls.secondary,
        ∀ arg ∈ constructor.arguments, arg.CallsOnly IsConstructor := by
  have hplain : ∀ type ∈ schema.types.values, type.isScalar = false →
      IsConstructor ("" ++ type.name) := by
    intro type htype hscalar
    rw [String.empty_append, IsConstructor,
      dottedParts_of_notMem (dot_notMem_of_isName (hschema type htype hscalar))]
    exact Or.inl rfl
  have hqualified : ∀ type ∈ schema.types.values, type.isScalar = false →
      IsConstructor (operation.name ++ "." ++ nameOfVariables operation.name ++ "." ++
        type.name) := by
    intro type htype hscalar
    have hvars : Token.isName (nameOfVariables operation.name) = true :=
      Token.isName_append hname (by decide)
    rw [IsConstructor, dottedParts_qualified hname hvars (hschema type htype hscalar)]
    exact Or.inr rfl
  constructor
  · cases hvars : model.variablesClass with
    | none =>
        rw [(Build.helper_of_ofOperation hmodel hvars).2]
        exact fun _ hmem => absurd hmem List.not_mem_nil
    | some cls =>
        obtain ⟨bindings, visited, flat, hrebuilds⟩ := Build.exists_rebuilds hmodel hvars
        rw [hrebuilds.helperArguments]
        exact Build.callsOnly_arguments hqualified hrebuilds.resolved hrebuilds.flattened
  · intro cls hcls constructor hconstructor
    obtain ⟨bindings, visited, flat, hrebuilds, rfl⟩ :=
      exists_rebuilds_of_mem_secondary hmodel hcls hconstructor
    exact Build.callsOnly_arguments hplain hrebuilds.resolved hrebuilds.flattened

end Emit

end ClientSdk
