import ClientSdk.Emit.Operation
import ClientSdk.Proofs.Emit.Ident
import ClientSdk.Proofs.Lookup

/-!
# Code of Classes

What the code of a class consists of: its structure, the constructors beside the one that takes
every field, and the structures of its nested classes in a module. The identifiers of the fields of
one structure are distinct, and so are those of the classes nested in one class. Emission of either
stops where two names become one identifier.

## Main definitions

* `StructCode`, `ClassCode`: the code of a structure, and of a class with its nested classes.
* `StructCode.Declares`, `ClassCode.Declares`: the code is that of a class of a model.

## Main results

* `emitFields_eq_ok_iff`: fields are emitted one by one, and have distinct identifiers.
* `emitNested_eq_ok_iff`: nested classes are emitted one by one, and have distinct identifiers.
* `emitClass_eq_ok_iff`: the code of a class.
* `emitOperation_eq_ok`: the file of an operation.
-/

namespace ClientSdk

/-- The classes of a model that no other class holds. -/
def ClassModel.topClasses (model : ClassModel) : List ClassDecl :=
  model.variablesClass.toList ++ model.responseClass.toList

namespace Emit

open Code

/-! ### Fields -/

/-- The field is that of a parameter. -/
def IsFieldOf (scope : Scope) (param : Parameter) (field : Field) : Prop :=
  ∃ ident type, Ident.ofValueName param.name = .ok ident ∧
    emitType scope param.type = .ok type ∧ field = emitField param.name ident type

/-- **Fields are emitted one by one**, and their identifiers are distinct. -/
theorem emitFields_eq_ok_iff {scope : Scope} {owner : String} {taken : List Ident}
    {params : List Parameter} {fields : List Field} :
    emitFields scope owner taken params = .ok fields ↔
      List.Forall₂ (IsFieldOf scope) params fields ∧ (fields.map (·.name)).Nodup ∧
        ∀ ident ∈ fields.map (·.name), ident ∉ taken := by
  -- Induction on the parameters, for all identifiers that the fields before may have taken.
  induction params generalizing taken fields with
  | nil =>
      rw [emitFields, Except.ok.injEq, List.forall₂_nil_left_iff]
      constructor
      · rintro rfl
        exact ⟨rfl, List.nodup_nil, nofun⟩
      · exact fun h => h.1.symm
  | cons param params ih =>
      rw [emitFields]
      simp only [bind_eq_ok_iff, List.forall₂_cons_left_iff]
      constructor
      · rintro ⟨ident, hident, h⟩
        split at h
        · cases h
        rename_i hfree
        simp only [bind_eq_ok_iff, pure_eq_ok_iff] at h
        obtain ⟨type, htype, rest, hrest, rfl⟩ := h
        obtain ⟨hfields, hdistinct⟩ := ih.mp hrest
        exact ⟨⟨_, rest, ⟨ident, type, hident, htype, rfl⟩, hfields, rfl⟩,
          nodup_cons_and_notMem_iff.mpr ⟨hfree, hdistinct⟩⟩
      · rintro ⟨⟨_, rest, ⟨ident, type, hident, htype, rfl⟩, hfields, rfl⟩, hdistinct⟩
        obtain ⟨hfree, hdistinct⟩ := nodup_cons_and_notMem_iff.mp hdistinct
        replace hfree : ident ∉ taken := hfree
        refine ⟨ident, hident, ?_⟩
        rw [if_neg hfree]
        simp only [bind_eq_ok_iff, pure_eq_ok_iff]
        exact ⟨type, htype, rest, ih.mpr ⟨hfields, hdistinct⟩, rfl⟩

/-! ### Structures -/

/-- The code of the structure of a class. -/
structure StructCode where
  /-- The class. -/
  cls : ClassDecl
  /-- The identifier of the structure. -/
  ident : Ident
  /-- The fields of the structure. -/
  fields : List Field

namespace StructCode

/-- The code is that of its class, as the class is seen from `scope`. -/
structure Declares (scope : Scope) (code : StructCode) : Prop where
  /-- The identifier is that of the class. -/
  ident : Ident.ofTypeName code.cls.name = .ok code.ident
  /-- The fields are those of its parameters. -/
  fields : List.Forall₂ (IsFieldOf scope) code.cls.parameters code.fields
  /-- Their identifiers are distinct. -/
  nodup : (code.fields.map (·.name)).Nodup

/-- The structure with its constructors. -/
def items (code : StructCode) (doc : String) (others : List Function) : List Item :=
  [.struct [doc] [derived] code.ident code.fields,
   .impl code.ident (primaryConstructor code.fields :: others)]

end StructCode

/-- A structure has the fields of the parameters of its class. -/
theorem emitStruct_eq_ok_iff {scope : Scope} {doc : String} {cls : ClassDecl}
    {others : List Function} {items : List Item} :
    emitStruct scope doc cls.name cls.parameters others = .ok items ↔
      ∃ code : StructCode, code.cls = cls ∧ code.Declares scope ∧
        items = code.items doc others := by
  simp only [emitStruct, bind_eq_ok_iff, pure_eq_ok_iff, emitFields_eq_ok_iff]
  constructor
  · rintro ⟨ident, hident, fields, ⟨hfields, hnodup, -⟩, rfl⟩
    exact ⟨⟨cls, ident, fields⟩, rfl, ⟨hident, hfields, hnodup⟩, rfl⟩
  · rintro ⟨⟨_, ident, fields⟩, rfl, ⟨hident, hfields, hnodup⟩, rfl⟩
    exact ⟨ident, hident, fields, ⟨hfields, hnodup, fun _ _ => List.not_mem_nil⟩, rfl⟩

/-- The documentation of a nested class. -/
def nestedDoc (cls : ClassDecl) : String := s!" GraphQL type `{cls.name}`."

/-- The structures of nested classes. -/
def nestedItems (codes : List StructCode) : List Item :=
  codes.flatMap fun code => code.items (nestedDoc code.cls) []

/-- **Nested classes are emitted one by one**, and their identifiers are distinct. -/
theorem emitNested_eq_ok_iff {scope : Scope} {owner : String} {taken : List Ident}
    {classes : List ClassDecl} {items : List Item} :
    emitNested scope owner taken classes = .ok items ↔
      ∃ codes : List StructCode, codes.map (·.cls) = classes ∧
        (∀ code ∈ codes, code.Declares scope) ∧ (codes.map (·.ident)).Nodup ∧
        (∀ ident ∈ codes.map (·.ident), ident ∉ taken) ∧ items = nestedItems codes := by
  induction classes generalizing taken items with
  | nil =>
      rw [emitNested, Except.ok.injEq]
      constructor
      · rintro rfl
        exact ⟨[], rfl, nofun, List.nodup_nil, nofun, rfl⟩
      · rintro ⟨codes, hcodes, -, -, -, rfl⟩
        rw [List.map_eq_nil_iff.mp hcodes]
        rfl
  | cons cls classes ih =>
      rw [emitNested]
      simp only [bind_eq_ok_iff]
      constructor
      · rintro ⟨ident, hident, h⟩
        split at h
        · cases h
        rename_i hfree
        simp only [bind_eq_ok_iff, pure_eq_ok_iff, emitStruct_eq_ok_iff] at h
        obtain ⟨_, ⟨code, rfl, hcode, rfl⟩, rest, hrest, rfl⟩ := h
        obtain rfl := Except.ok.inj (hident.symm.trans hcode.ident)
        obtain ⟨codes, hclasses, hcodes, hnodup, hnew, rfl⟩ := ih.mp hrest
        obtain ⟨hnodup, hnew⟩ := nodup_cons_and_notMem_iff.mpr ⟨hfree, hnodup, hnew⟩
        exact ⟨code :: codes, by rw [List.map_cons, hclasses],
          List.forall_mem_cons.mpr ⟨hcode, hcodes⟩, hnodup, hnew, rfl⟩
      · rintro ⟨codes, hclasses, hcodes, hnodup, hnew, rfl⟩
        obtain ⟨code, codes, rfl, rfl, rfl⟩ := List.map_eq_cons_iff.mp hclasses
        obtain ⟨hcode, hcodes⟩ := List.forall_mem_cons.mp hcodes
        obtain ⟨hfree, hnodup, hnew⟩ := nodup_cons_and_notMem_iff.mp ⟨hnodup, hnew⟩
        refine ⟨code.ident, hcode.ident, ?_⟩
        rw [if_neg hfree]
        simp only [bind_eq_ok_iff, pure_eq_ok_iff, emitStruct_eq_ok_iff]
        exact ⟨_, ⟨code, rfl, hcode, rfl⟩, _, ih.mpr ⟨codes, rfl, hcodes, hnodup, hnew, rfl⟩, rfl⟩

/-! ### Classes -/

/-- The code of a class with the classes nested in it. -/
structure ClassCode where
  /-- The structure of the class. -/
  outer : StructCode
  /-- Its constructors that take flattened parameters. -/
  others : List Function
  /-- The name of the module of the nested classes. -/
  nestedModule : Ident
  /-- The structures of the nested classes. -/
  nested : List StructCode

namespace ClassCode

/-- From where a class is seen beside its module. -/
def outside (package : PackagePath) (code : ClassCode) : Scope where
  package := package
  nestedModule := some code.nestedModule

/-- The code is that of its class. -/
structure Declares (package : PackagePath) (code : ClassCode) : Prop where
  /-- The module is called like the class. -/
  nestedModule : Ident.ofValueName code.outer.cls.name = .ok code.nestedModule
  /-- The structure is that of the class. -/
  outer : code.outer.Declares (code.outside package)
  /-- The constructors are its other ones. -/
  others : List.Forall₂
    (fun constructor other => flattenedConstructor (code.outside package) constructor = .ok other)
    code.outer.cls.secondary code.others
  /-- The nested classes are those of the class. -/
  classes : code.nested.map (·.cls) = code.outer.cls.nested
  /-- Their structures are seen from inside the module. -/
  nested : ∀ inner ∈ code.nested, inner.Declares { package, nestedModule := none }
  /-- Their identifiers are distinct. -/
  nodup : (code.nested.map (·.ident)).Nodup

/-- The items of the module of the nested classes, if there are any classes. -/
def inside (code : ClassCode) : Option (List Item) :=
  if code.nested.isEmpty then none else some (imports :: nestedItems code.nested)

/-- The structure with the module of the nested classes. -/
def items (code : ClassCode) (doc : String) : List Item :=
  code.outer.items doc code.others ++ code.inside.toList.map fun items =>
    .module [s!" Nested types of [`{code.outer.ident.spelling}`]."] code.nestedModule items

end ClassCode

/-- **The code of a class** is a structure with a module of structures. -/
theorem emitClass_eq_ok_iff {package : PackagePath} {doc : String} {cls : ClassDecl}
    {items : List Item} :
    emitClass package doc cls = .ok items ↔
      ∃ code : ClassCode, code.outer.cls = cls ∧ code.Declares package ∧
        items = code.items doc := by
  rw [emitClass]
  simp only [bind_eq_ok_iff, mapM_eq_ok_iff, emitStruct_eq_ok_iff]
  constructor
  · rintro ⟨nestedModule, hmodule, others, hothers, _, ⟨outer, rfl, houter, rfl⟩, h⟩
    split at h
    · rename_i hempty
      obtain rfl := Except.ok.inj h
      refine ⟨⟨outer, others, nestedModule, []⟩, rfl, ⟨hmodule, houter, hothers, ?_, nofun,
        List.nodup_nil⟩, (List.append_nil _).symm⟩
      exact (List.isEmpty_iff.mp hempty).symm
    · rename_i hempty
      simp only [bind_eq_ok_iff, pure_eq_ok_iff, emitNested_eq_ok_iff] at h
      obtain ⟨_, ⟨codes, hclasses, hcodes, hnodup, -, rfl⟩, ident, hident, rfl⟩ := h
      obtain rfl := Except.ok.inj (houter.ident.symm.trans hident)
      have hne : codes.isEmpty = false := by
        rw [← Bool.not_eq_true, ← List.isEmpty_map (f := StructCode.cls), hclasses]
        exact hempty
      refine ⟨⟨outer, others, nestedModule, codes⟩, rfl,
        ⟨hmodule, houter, hothers, hclasses, hcodes, hnodup⟩, ?_⟩
      rw [ClassCode.items, ClassCode.inside, hne]
      rfl
  · rintro ⟨code, rfl, hcode, rfl⟩
    refine ⟨_, hcode.nestedModule, _, hcode.others, _, ⟨code.outer, rfl, hcode.outer, rfl⟩, ?_⟩
    rw [← hcode.classes, List.isEmpty_map, ClassCode.items, ClassCode.inside]
    cases hempty : code.nested.isEmpty with
    | true =>
        rw [if_pos rfl, if_pos rfl, Option.toList_none, List.map_nil, List.append_nil]
        rfl
    | false =>
        rw [if_neg Bool.false_ne_true, if_neg Bool.false_ne_true]
        simp only [bind_eq_ok_iff, pure_eq_ok_iff, emitNested_eq_ok_iff]
        exact ⟨_, ⟨_, rfl, hcode.nested, hcode.nodup, fun _ _ => List.not_mem_nil, rfl⟩, _,
          hcode.outer.ident, rfl⟩

/-! ### Operations -/

/-- The function that builds the variables from flattened parameters. -/
def helperFunction (ident : Ident) (parameters : List (Ident × Ty)) (arguments : List Expr) :
    Function where
  docs := [" Builds [`Variables`] from flattened scalar parameters."]
  attributes := [manyArguments]
  name := .plain "variables"
  parameters := parameters
  result := .plain "Variables"
  body := .call (plainPath [ident, .plain "new"]) arguments

/-- The code of an operation. -/
structure OperationCode where
  /-- The class of the variables with the function that builds them, if there are variables. -/
  vars : Option (ClassCode × Function)
  /-- The class of the response, if anything is selected. -/
  response : Option ClassCode

namespace OperationCode

/-- The classes of the variables and the response. -/
def classes (code : OperationCode) : List ClassCode :=
  (code.vars.map Prod.fst).toList ++ code.response.toList

/-- The code is that of a model. -/
structure Declares (model : ClassModel) (package : PackagePath) (code : OperationCode) :
    Prop where
  /-- The class of the variables is that of the model. -/
  vars : (code.vars.map Prod.fst).map (·.outer.cls) = model.variablesClass
  /-- The class of the response is that of the model. -/
  response : code.response.map (·.outer.cls) = model.responseClass
  /-- The code of a class is that of the class. -/
  classes : ∀ cls ∈ code.classes, cls.Declares package
  /-- The function takes the parameters of the helper and passes on its arguments. -/
  helper : ∀ cls function, code.vars = some (cls, function) → ∃ parameters arguments,
    emitParameters (cls.outside package) model.helperParameters = .ok parameters ∧
      emitArguments (cls.outside package) model.helperArguments = .ok arguments ∧
      function = helperFunction cls.outer.ident parameters arguments

/-- The type of a class, or the type with one value. -/
def aliased (code : Option ClassCode) : Ty :=
  code.elim .unit fun cls => .path [cls.outer.ident]

/-- What stands in front of the classes. -/
def header (model : ClassModel) (code : OperationCode) : List Item :=
  [imports,
   .constant [" Operation name as written in the document."] (.plain "OPERATION_NAME")
     model.operationName,
   .constant [" `query` or `mutation`."] (.plain "OPERATION_KIND") model.operationKind.keyword,
   .typeAlias (.plain "Variables") (aliased (code.vars.map Prod.fst)),
   .typeAlias (.plain "Data") (aliased code.response)]

/-- The documentation of the class of the variables. -/
def varsDoc (model : ClassModel) : String :=
  s!" Variables of the `{model.operationName}` {model.operationKind.keyword}."

/-- The documentation of the class of the response. -/
def responseDoc (model : ClassModel) : String :=
  s!" Response data of the `{model.operationName}` {model.operationKind.keyword}."

/-- All items of the file. -/
def items (model : ClassModel) (code : OperationCode) : List Item :=
  code.header model ++
    (code.vars.map Prod.fst).toList.flatMap (·.items (varsDoc model)) ++
    code.response.toList.flatMap (·.items (responseDoc model)) ++
    (code.vars.map Prod.snd).toList.map .function

end OperationCode

/-- The class of the response is emitted where the model has one. -/
theorem emitResponse_eq_ok {package : PackagePath} {model : ClassModel} {type : Ty}
    {items : List Item} (h : emitResponse package model = .ok (type, items)) :
    ∃ response : Option ClassCode, response.map (·.outer.cls) = model.responseClass ∧
      (∀ cls ∈ response, cls.Declares package) ∧ type = OperationCode.aliased response ∧
      items = response.toList.flatMap (·.items (OperationCode.responseDoc model)) := by
  rw [emitResponse] at h
  split at h
  · rename_i hnone
    obtain ⟨rfl, rfl⟩ := Prod.mk.inj (Except.ok.inj h)
    exact ⟨none, hnone.symm, nofun, rfl, rfl⟩
  · rename_i cls hsome
    simp only [bind_eq_ok_iff, pure_eq_ok_iff, emitClass_eq_ok_iff] at h
    obtain ⟨ident, hident, _, ⟨code, rfl, hcode, rfl⟩, heq⟩ := h
    obtain ⟨rfl, rfl⟩ := Prod.mk.inj heq
    obtain rfl := Except.ok.inj (hident.symm.trans hcode.outer.ident)
    refine ⟨some code, hsome.symm, ?_, rfl, ?_⟩
    · rintro _ ⟨⟩
      exact hcode
    · rw [Option.toList_some, List.flatMap_singleton]
      rfl

/-- **The file of an operation** consists of its classes, between a header and the function that
builds the variables. -/
theorem emitOperation_eq_ok {model : ClassModel} {file : File}
    (h : emitOperation model = .ok file) :
    ∃ package code, PackagePath.parse model.package = .ok package ∧
      OperationCode.Declares model package code ∧ file.items = code.items model := by
  rw [emitOperation] at h
  simp only [bind_eq_ok_iff, pure_eq_ok_iff] at h
  obtain ⟨package, hpackage, vars, hvars, ⟨type, items⟩, hitems, rfl⟩ := h
  obtain ⟨response, hclass, hresponse, rfl, rfl⟩ := emitResponse_eq_ok hitems
  rw [emitVariables] at hvars
  split at hvars
  · rename_i hnone
    obtain rfl := Except.ok.inj hvars
    refine ⟨package, ⟨none, response⟩, hpackage, ⟨hnone.symm, hclass, ?_, nofun⟩, rfl⟩
    exact fun cls hcls => hresponse cls (Option.mem_toList.mp hcls)
  · rename_i cls hsome
    simp only [bind_eq_ok_iff, pure_eq_ok_iff, emitClass_eq_ok_iff] at hvars
    obtain ⟨ident, hident, _, ⟨code, rfl, hcode, rfl⟩, nestedModule, hmodule, parameters,
      hparameters, arguments, harguments, rfl⟩ := hvars
    obtain rfl := Except.ok.inj (hident.symm.trans hcode.outer.ident)
    obtain rfl := Except.ok.inj (hmodule.symm.trans hcode.nestedModule)
    refine ⟨package, ⟨some (code, helperFunction code.outer.ident parameters arguments), response⟩,
      hpackage, ⟨hsome.symm, hclass, ?_, ?_⟩, ?_⟩
    · intro cls hcls
      rcases List.mem_cons.mp hcls with rfl | hcls
      · exact hcode
      · exact hresponse cls (Option.mem_toList.mp hcls)
    · rintro _ _ ⟨⟩
      exact ⟨parameters, arguments, hparameters, harguments, rfl⟩
    · rw [OperationCode.items, Option.map_some, Option.toList_some, List.flatMap_singleton,
        Option.map_some, Option.toList_some, List.map_singleton]
      rfl

end Emit

end ClientSdk
