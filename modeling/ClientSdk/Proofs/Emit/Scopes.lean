import ClientSdk.Proofs.Emit.Classes

/-!
# Scopes of Generated Code

The names that generated code declares side by side: the fields of a structure, the parameters of a
function, and the types of a file or a module. Fields never have one name. Parameters of functions
that take flattened parameters may, and so may types, since emission compares neither the ones with
each other nor the others with what is imported or declared in front of them.

## Main definitions

* `Code.File.FieldsDistinct`, `Code.File.ParametersDistinct`, `Code.File.TypeNamesDistinct`: no
  scope of a file has a name twice.

## Main results

* `fieldsDistinct_of_emitOperation`: fields are distinct in every file.
* `parametersDistinct_iff_of_emitOperation`: when parameters are.
* `typeNamesDistinct_iff_of_emitOperation`: when types are.
-/

namespace ClientSdk

namespace Code

/-! ### Declared names -/

mutual

/-- The scopes inside an item: the items of a module, and the scopes inside of those. -/
def Item.scopes : Item → List (List Item)
  | module _ _ items => items :: Item.scopesOfAll items
  | _ => []

/-- The scopes inside items. -/
def Item.scopesOfAll : List Item → List (List Item)
  | [] => []
  | item :: items => item.scopes ++ Item.scopesOfAll items

end

/-- The scopes of a file: its items, and those of its modules. -/
def File.scopes (file : File) : List (List Item) := file.items :: Item.scopesOfAll file.items

/-- The types that an item imports or declares. -/
def Item.typeNames : Item → List Ident
  | use _ names => names
  | typeAlias name _ => [name]
  | struct _ _ name _ => [name]
  | _ => []

/-- The fields of the structure that an item declares. -/
def Item.fieldLists : Item → List (List Field)
  | struct _ _ _ fields => [fields]
  | _ => []

/-- The functions that an item declares. -/
def Item.functions : Item → List Function
  | impl _ functions => functions
  | function declaration => [declaration]
  | _ => []

/-- No structure of the file has two fields with one name. -/
def File.FieldsDistinct (file : File) : Prop :=
  ∀ fields ∈ file.scopes.flatten.flatMap Item.fieldLists, (fields.map (·.name.text)).Nodup

/-- No function of the file has two parameters with one name. -/
def File.ParametersDistinct (file : File) : Prop :=
  ∀ function ∈ file.scopes.flatten.flatMap Item.functions,
    (function.parameters.map (·.1.text)).Nodup

/-- No scope of the file imports or declares two types with one name. -/
def File.TypeNamesDistinct (file : File) : Prop :=
  ∀ items ∈ file.scopes, ((items.flatMap Item.typeNames).map (·.text)).Nodup

instance (file : File) : Decidable file.FieldsDistinct :=
  inferInstanceAs (Decidable (∀ fields ∈ _, _))

instance (file : File) : Decidable file.ParametersDistinct :=
  inferInstanceAs (Decidable (∀ function ∈ _, _))

instance (file : File) : Decidable file.TypeNamesDistinct :=
  inferInstanceAs (Decidable (∀ items ∈ _, _))

theorem Item.scopesOfAll_eq_flatMap (items : List Item) :
    Item.scopesOfAll items = items.flatMap Item.scopes := by
  induction items with
  | nil => rw [scopesOfAll, List.flatMap_nil]
  | cons item items ih => rw [scopesOfAll, ih, List.flatMap_cons]

end Code

/-! ### Models -/

/-- The classes nested in a class have distinct identifiers, and so have the fields of each of them
and of the class itself. -/
def ClassDecl.Separates (cls : ClassDecl) : Prop :=
  (cls.nested.map fun inner => Ident.ofTypeName inner.name).Nodup ∧
    ∀ decl ∈ cls :: cls.nested,
      (decl.parameters.map fun param => Ident.ofValueName param.name).Nodup

instance (cls : ClassDecl) : Decidable cls.Separates :=
  inferInstanceAs (Decidable (_ ∧ ∀ decl ∈ _, _))

namespace Emit

open Code

/-- The types that every scope imports. -/
def importedTypes : List String := ["Deserialize", "Serialize"]

/-! ### What the code of an operation declares -/

section Declared

variable {β : Type} {g : Item → List β}

/-- What nested structures declare, if each of them declares one thing. -/
theorem flatMap_nestedItems {f : StructCode → β}
    (h : ∀ (code : StructCode) (doc : String), (code.items doc []).flatMap g = [f code])
    (codes : List StructCode) : (nestedItems codes).flatMap g = codes.map f := by
  rw [nestedItems, List.flatMap_assoc, List.map_eq_flatMap]
  simp only [h]

/-- The code of a class declares what its structure does, beside the module. -/
theorem ClassCode.flatMap_items
    (h : ∀ (docs : List String) (name : Ident) (items : List Item),
      g (.module docs name items) = [])
    (cls : ClassCode) (doc : String) :
    (cls.items doc).flatMap g = (cls.outer.items doc cls.others).flatMap g := by
  rw [ClassCode.items, List.flatMap_append]
  cases cls.inside with
  | none => exact List.append_nil _
  | some items =>
      rw [Option.toList_some, List.map_singleton, List.flatMap_singleton, h, List.append_nil]

/-- The code of an operation declares what its header, its classes and its function do. -/
theorem OperationCode.flatMap_items {f : ClassCode → List β}
    (h : ∀ (cls : ClassCode) (doc : String), (cls.items doc).flatMap g = f cls)
    (model : ClassModel) (code : OperationCode) :
    (code.items model).flatMap g = (code.header model).flatMap g ++ code.classes.flatMap f ++
      (code.vars.map Prod.snd).toList.flatMap fun function => g (.function function) := by
  simp only [OperationCode.items, OperationCode.classes, List.flatMap_append, List.flatMap_assoc,
    List.flatMap_map, h, List.append_assoc]

end Declared

/-- The only scopes inside of a file are the modules of nested classes. -/
theorem OperationCode.scopesOfAll_items (model : ClassModel) (code : OperationCode) :
    Item.scopesOfAll (code.items model) = code.classes.flatMap fun cls => cls.inside.toList := by
  have hnested : ∀ codes : List StructCode, Item.scopesOfAll (nestedItems codes) = [] := by
    intro codes
    rw [Item.scopesOfAll_eq_flatMap, nestedItems, List.flatMap_assoc, List.flatMap_eq_nil_iff]
    exact fun _ _ => rfl
  have hclass : ∀ (cls : ClassCode) (doc : String),
      (cls.items doc).flatMap Item.scopes = cls.inside.toList := by
    intro cls doc
    rw [ClassCode.items, List.flatMap_append, ClassCode.inside]
    cases cls.nested.isEmpty with
    | true => rfl
    | false =>
        rw [if_neg Bool.false_ne_true, Option.toList_some, List.map_singleton,
          List.flatMap_singleton, Item.scopes, Item.scopesOfAll, hnested]
        rfl
  rw [Item.scopesOfAll_eq_flatMap, OperationCode.flatMap_items hclass]
  simp [OperationCode.header, imports, Item.scopes]

/-- All that the scopes of a file declare, if imports declare none of it. -/
theorem flatMap_flatten_scopes {β : Type} {g : Item → List β} {f : ClassCode → List β}
    {f' : StructCode → β}
    (h : ∀ (cls : ClassCode) (doc : String), (cls.items doc).flatMap g = f cls)
    (h' : ∀ (inner : StructCode) (doc : String), (inner.items doc []).flatMap g = [f' inner])
    (himports : g imports = []) {model : ClassModel} {code : OperationCode} {file : File}
    (hfile : file.items = code.items model) :
    file.scopes.flatten.flatMap g = (code.header model).flatMap g ++ code.classes.flatMap f ++
      ((code.vars.map Prod.snd).toList.flatMap fun function => g (.function function)) ++
      code.classes.flatMap fun cls => cls.nested.map f' := by
  have hinside : ∀ cls : ClassCode,
      cls.inside.toList.flatten.flatMap g = cls.nested.map f' := by
    intro cls
    rw [ClassCode.inside]
    cases hempty : cls.nested.isEmpty with
    | true =>
        rw [List.isEmpty_iff.mp hempty]
        rfl
    | false =>
        rw [if_neg Bool.false_ne_true, Option.toList_some, List.flatten_singleton,
          List.flatMap_cons, himports, List.nil_append, flatMap_nestedItems h']
  rw [File.scopes, hfile, OperationCode.scopesOfAll_items, List.flatten_cons,
    List.flatMap_append, OperationCode.flatMap_items h]
  congr 1
  induction code.classes with
  | nil => rfl
  | cons cls classes ih =>
      rw [List.flatMap_cons, List.flatten_append, List.flatMap_append, hinside, ih,
        List.flatMap_cons]

/-- The types that stand in front of the classes. -/
def reservedTypes : List Ident := ["Deserialize", "Serialize", "Variables", "Data"].map Ident.plain

section Operation

variable {model : ClassModel} {package : PackagePath} {code : OperationCode} {file : File}

/-- The types of a file are those in front of the classes, and the classes. -/
theorem typeNames_items (model : ClassModel) (code : OperationCode) :
    (code.items model).flatMap Item.typeNames =
      reservedTypes ++ code.classes.map (·.outer.ident) := by
  rw [OperationCode.flatMap_items (f := fun cls => [cls.outer.ident]), List.map_eq_flatMap]
  · simp [OperationCode.header, imports, Item.typeNames, reservedTypes]
  · intro cls doc
    rw [ClassCode.flatMap_items fun _ _ _ => rfl]
    rfl

/-- The fields of a file are those of the classes, and those of the classes nested in them. -/
theorem fieldLists_scopes (hfile : file.items = code.items model) :
    file.scopes.flatten.flatMap Item.fieldLists =
      code.classes.map (·.outer.fields) ++
        code.classes.flatMap fun cls => cls.nested.map (·.fields) := by
  rw [flatMap_flatten_scopes (f := fun cls => [cls.outer.fields]) _ (fun _ _ => rfl) rfl hfile,
    List.map_eq_flatMap]
  · simp [OperationCode.header, imports, Item.fieldLists]
  · intro cls doc
    rw [ClassCode.flatMap_items fun _ _ _ => rfl]
    rfl

/-- The functions of a file are the constructors of all classes, and the function that builds the
variables. -/
theorem functions_scopes (hfile : file.items = code.items model) :
    file.scopes.flatten.flatMap Item.functions =
      (code.classes.flatMap fun cls => primaryConstructor cls.outer.fields :: cls.others) ++
        (code.vars.map Prod.snd).toList ++
        code.classes.flatMap fun cls => cls.nested.map fun inner =>
          primaryConstructor inner.fields := by
  rw [flatMap_flatten_scopes
    (f := fun cls => primaryConstructor cls.outer.fields :: cls.others) _ (fun _ _ => rfl) rfl
    hfile]
  · simp [OperationCode.header, imports, Item.functions]
  · intro cls doc
    rw [ClassCode.flatMap_items fun _ _ _ => rfl]
    exact List.append_nil _

/-! ### Distinct names -/

/-- The fields of a structure have distinct names. -/
theorem StructCode.Declares.nodup_text {scope : Scope} {code : StructCode}
    (h : code.Declares scope) : (code.fields.map (·.name.text)).Nodup := by
  have hspelled : ∀ ident ∈ code.fields.map (·.name),
      ∃ text, Ident.ofSpelling text = .ok ident := by
    intro ident hident
    obtain ⟨field, hfield, rfl⟩ := List.mem_map.mp hident
    obtain ⟨param, -, ident, -, hname, -, rfl⟩ := exists_left_of_forall₂ h.fields hfield
    exact ⟨_, hname⟩
  have htext := (Ident.nodup_map_text_iff hspelled).mpr h.nodup
  rwa [List.map_map] at htext

/-- The classes in the code of an operation are those of the model. -/
theorem OperationCode.Declares.topClasses (h : OperationCode.Declares model package code) :
    code.classes.map (·.outer.cls) = model.topClasses := by
  simp only [ClassModel.topClasses, ← h.vars, ← h.response, OperationCode.classes,
    List.map_append, Option.toList_map]

/-- A class in the code of an operation is that of a class of the model. -/
theorem OperationCode.Declares.mem_topClasses (h : OperationCode.Declares model package code)
    {cls : ClassCode} (hcls : cls ∈ code.classes) : cls.outer.cls ∈ model.topClasses := by
  rw [← h.topClasses]
  exact List.mem_map_of_mem hcls

/-- **The identifiers of fields and of nested classes are distinct** in every class that has
code. -/
theorem ClassCode.Declares.separates {cls : ClassCode} (h : cls.Declares package) :
    cls.outer.cls.Separates := by
  have hfields : ∀ {scope : Scope} {inner : StructCode}, inner.Declares scope →
      (inner.cls.parameters.map fun param => Ident.ofValueName param.name).Nodup := by
    intro scope inner hinner
    have hnames : List.Forall₂ (fun (param : Parameter) ident =>
        Ident.ofValueName param.name = .ok ident) inner.cls.parameters
        (inner.fields.map (·.name)) := by
      rw [List.forall₂_map_right_iff]
      refine hinner.fields.imp ?_
      rintro param field ⟨ident, type, hident, -, rfl⟩
      exact hident
    exact (nodup_map_iff_of_forall₂ hnames).mpr hinner.nodup
  have hidents : List.Forall₂ (fun (inner : ClassDecl) ident =>
      Ident.ofTypeName inner.name = .ok ident) cls.outer.cls.nested
      (cls.nested.map (·.ident)) := by
    rw [← h.classes, List.forall₂_map_left_iff, List.forall₂_map_right_iff, List.forall₂_same]
    exact fun inner hinner => (h.nested inner hinner).ident
  refine ⟨(nodup_map_iff_of_forall₂ hidents).mpr h.nodup, List.forall_mem_cons.mpr
    ⟨hfields h.outer, fun decl hdecl => ?_⟩⟩
  rw [← h.classes] at hdecl
  obtain ⟨inner, hinner, rfl⟩ := List.mem_map.mp hdecl
  exact hfields (h.nested inner hinner)

/-- **No structure has two fields with one name.** -/
theorem OperationCode.Declares.fieldsDistinct (h : OperationCode.Declares model package code)
    (hfile : file.items = code.items model) : file.FieldsDistinct := by
  intro fields hfields
  rw [fieldLists_scopes hfile, List.mem_append] at hfields
  rcases hfields with hfields | hfields
  · obtain ⟨cls, hcls, rfl⟩ := List.mem_map.mp hfields
    exact (h.classes cls hcls).outer.nodup_text
  · obtain ⟨cls, hcls, hfields⟩ := List.mem_flatMap.mp hfields
    obtain ⟨inner, hinner, rfl⟩ := List.mem_map.mp hfields
    exact ((h.classes cls hcls).nested inner hinner).nodup_text

/-- **When no function has two parameters with one name**: when those functions have none that take
flattened parameters. -/
theorem OperationCode.Declares.parametersDistinct_iff
    (h : OperationCode.Declares model package code) (hfile : file.items = code.items model) :
    file.ParametersDistinct ↔
      ∀ function ∈ code.classes.flatMap (·.others) ++ (code.vars.map Prod.snd).toList,
        (function.parameters.map (·.1.text)).Nodup := by
  have hprimary : ∀ {scope : Scope} {inner : StructCode}, inner.Declares scope →
      ((primaryConstructor inner.fields).parameters.map (·.1.text)).Nodup := by
    intro scope inner hinner
    rw [primaryConstructor, List.map_map]
    exact hinner.nodup_text
  rw [File.ParametersDistinct, functions_scopes hfile]
  constructor
  · intro hall function hfunction
    refine hall function ?_
    rcases List.mem_append.mp hfunction with hother | hhelper
    · obtain ⟨cls, hcls, hother⟩ := List.mem_flatMap.mp hother
      refine List.mem_append_left _ (List.mem_append_left _ ?_)
      exact List.mem_flatMap.mpr ⟨cls, hcls, List.mem_cons_of_mem _ hother⟩
    · exact List.mem_append_left _ (List.mem_append_right _ hhelper)
  · intro hall function hfunction
    rcases List.mem_append.mp hfunction with hfunction | hnested
    · rcases List.mem_append.mp hfunction with hclass | hhelper
      · obtain ⟨cls, hcls, hclass⟩ := List.mem_flatMap.mp hclass
        rcases List.mem_cons.mp hclass with rfl | hother
        · exact hprimary (h.classes cls hcls).outer
        · exact hall function
            (List.mem_append_left _ (List.mem_flatMap.mpr ⟨cls, hcls, hother⟩))
      · exact hall function (List.mem_append_right _ hhelper)
    · obtain ⟨cls, hcls, hnested⟩ := List.mem_flatMap.mp hnested
      obtain ⟨inner, hinner, rfl⟩ := List.mem_map.mp hnested
      exact hprimary ((h.classes cls hcls).nested inner hinner)

/-- The types of a module are distinct when none of its classes is called like an import. -/
theorem ClassCode.Declares.nodup_inside_iff {cls : ClassCode} (h : cls.Declares package) :
    (∀ items ∈ cls.inside.toList, ((items.flatMap Item.typeNames).map (·.text)).Nodup) ↔
      ∀ inner ∈ cls.outer.cls.nested, Text.pascalCase inner.name ∉ importedTypes := by
  have hspelled : ∀ ident ∈ cls.nested.map (·.ident),
      ∃ text, Ident.ofSpelling text = .ok ident := by
    intro ident hident
    obtain ⟨inner, hinner, rfl⟩ := List.mem_map.mp hident
    exact ⟨_, (h.nested inner hinner).ident⟩
  have hnodup := (Ident.nodup_map_text_iff hspelled).mpr h.nodup
  -- No keyword is or becomes an import, so an identifier is one only if it is spelled like it.
  have hfree : ∀ target ∈ importedTypes, ∀ keyword ∈ Ident.pathKeywords,
      keyword ≠ target ∧ keyword ++ "_" ≠ target := by decide
  rw [← h.classes, List.forall_mem_map, ClassCode.inside]
  cases hempty : cls.nested.isEmpty with
  | true =>
      rw [List.isEmpty_iff.mp hempty]
      exact iff_of_true (fun _ hmem => absurd hmem List.not_mem_nil)
        (fun _ hmem => absurd hmem List.not_mem_nil)
  | false =>
      have hnames : ((imports :: nestedItems cls.nested).flatMap Item.typeNames).map (·.text) =
          importedTypes ++ (cls.nested.map (·.ident)).map (·.text) := by
        rw [List.flatMap_cons, flatMap_nestedItems fun _ _ => rfl, List.map_append]
        rfl
      rw [if_neg Bool.false_ne_true, Option.toList_some, List.forall_mem_singleton, hnames,
        List.nodup_append, and_iff_right (by decide), and_iff_right hnodup]
      constructor
      · intro hne inner hinner hmem
        have hident := (Ident.text_eq_iff (h.nested inner hinner).ident (hfree _ hmem)).mpr rfl
        refine hne _ hmem _ (List.mem_map_of_mem (List.mem_map_of_mem hinner)) hident.symm
      · rintro hne target htarget _ hmem rfl
        obtain ⟨_, hmem, htext⟩ := List.mem_map.mp hmem
        obtain ⟨inner, hinner, rfl⟩ := List.mem_map.mp hmem
        have hspelling :=
          (Ident.text_eq_iff (h.nested inner hinner).ident (hfree _ htarget)).mp htext
        exact hne inner hinner (hspelling ▸ htarget)

/-- **When no scope has two types with one name**: when this holds of the types of the file itself,
and no nested class is called like an import. -/
theorem OperationCode.Declares.typeNamesDistinct_iff
    (h : OperationCode.Declares model package code) (hfile : file.items = code.items model) :
    file.TypeNamesDistinct ↔
      ((reservedTypes ++ code.classes.map (·.outer.ident)).map (·.text)).Nodup ∧
        ∀ cls ∈ model.topClasses, ∀ inner ∈ cls.nested,
          Text.pascalCase inner.name ∉ importedTypes := by
  rw [File.TypeNamesDistinct, File.scopes, List.forall_mem_cons, hfile, typeNames_items,
    OperationCode.scopesOfAll_items, ← h.topClasses, List.forall_mem_map]
  refine and_congr_right fun _ => ?_
  simp only [List.mem_flatMap]
  constructor
  · intro hall cls hcls
    exact (h.classes cls hcls).nodup_inside_iff.mp fun items hitems =>
      hall items ⟨cls, hcls, hitems⟩
  · rintro hall items ⟨cls, hcls, hitems⟩
    exact (h.classes cls hcls).nodup_inside_iff.mpr (hall cls hcls) items hitems

end Operation

/-- Where the code of an operation is emitted, the names of each class become distinct
identifiers. -/
theorem separates_of_emitOperation {model : ClassModel} {file : File}
    (h : emitOperation model = .ok file) : ∀ cls ∈ model.topClasses, cls.Separates := by
  obtain ⟨path, code, -, hcode, -⟩ := emitOperation_eq_ok h
  rw [← hcode.topClasses, List.forall_mem_map]
  exact fun cls hcls => (hcode.classes cls hcls).separates

end Emit

end ClientSdk
