import ClientSdk.Proofs.Emit.Naming

/-!
# Constructors That Exist

The functions that take flattened parameters call constructors for the objects that they rebuild.
What they call comes from flattening, which names a constructor by a text, and what there is to call
comes from the search for nested classes. Emission makes identifiers of both, of the one where it is
called and of the other where it is declared. Each constructor that is called is declared in the
module of a class of the same file, and is given as many values as it takes.

## Main definitions

* `Code.Expr.CallsOnly`: all functions that an expression calls have a property.
* `Code.Constructs`: a structure is declared with its constructor.
* `Code.File.Rebuilds`: a function makes a structure with constructors of the file.

## Main results

* `callsOnly_of_fits`: what the code of well-typed arguments calls.
* `OperationCode.Declares.constructsIn`: nested classes are declared with their constructors.
* `emitOperation_constructs`: when an operation has code, and what that code calls.
-/

namespace ClientSdk

namespace Code

open Emit

/-- All functions that the expression calls have the property, with the number of values that they
are given. -/
inductive Expr.CallsOnly (P : PackagePath → Nat → Prop) : Expr → Prop
  | name (ident : Ident) : CallsOnly P (.name ident)
  | call {function : PackagePath} {arguments : List Expr} : P function arguments.length →
      (∀ arg ∈ arguments, CallsOnly P arg) → CallsOnly P (.call function arguments)
  | selfValue (fields : List Ident) : CallsOnly P (.selfValue fields)

/-- The items declare a structure, and a constructor of it that takes so many values. -/
def Constructs (items : List Item) (type : Ident) (arity : Nat) : Prop :=
  (∃ docs attributes fields, .struct docs attributes type fields ∈ items) ∧
    ∃ functions, .impl type functions ∈ items ∧
      ∃ function ∈ functions, function.name = .plain "new" ∧ function.parameters.length = arity

/-- The function makes an optional value, or it is the constructor of a structure in a module of the
file, and takes so many values. It is called by the path of the module and the structure. -/
def File.Resolves (file : File) (path : Ident → Ident → PackagePath) (function : PackagePath)
    (arity : Nat) : Prop :=
  function = plainPath [.plain "Some"] ∧ arity = 1 ∨
    ∃ docs nestedModule items type, .module docs nestedModule items ∈ file.items ∧
      Constructs items type arity ∧ function = path nestedModule type

/-- The function passes what it makes to the constructor of a structure of the file, as `head`, and
makes it with constructors in modules of the file. -/
def File.Rebuilds (file : File) (path : Ident → Ident → PackagePath) (type head : Ident)
    (function : Function) : Prop :=
  ∃ args, function.body = .call (plainPath [head, .plain "new"]) args ∧
    Constructs file.items type args.length ∧ ∀ arg ∈ args, arg.CallsOnly (file.Resolves path)

end Code

namespace Emit

open Build Code

/-! ### Code of arguments -/

/-- Arguments are emitted one by one. -/
theorem emitArguments_eq_ok_iff {scope : Scope} {args : List Argument} {exprs : List Expr} :
    emitArguments scope args = .ok exprs ↔
      List.Forall₂ (fun arg expr => emitArgument scope arg = .ok expr) args exprs := by
  induction args generalizing exprs with
  | nil => simp [emitArguments, eq_comm]
  | cons arg args ih =>
      simp only [emitArguments, bind_eq_ok_iff, pure_eq_ok_iff, List.forall₂_cons_left_iff, ih]
      constructor
      · rintro ⟨first, hfirst, rest, hrest, rfl⟩
        exact ⟨first, rest, hfirst, hrest, rfl⟩
      · rintro ⟨first, rest, hfirst, hrest, rfl⟩
        exact ⟨first, hfirst, rest, hrest, rfl⟩

mutual

/-- **What the code of a well-typed argument calls**: constructors of nested classes of the owner,
with as many values as those have parameters, and what makes values optional. -/
theorem callsOnly_of_fits {P : PackagePath → Nat → Prop} {scope : Scope} {pre : String}
    {owner : ClassDecl} {helpers : List Parameter} (hsome : P (plainPath [.plain "Some"]) 1)
    (hcalls : ∀ inner ∈ owner.nested, ∀ path,
      pathOfConstructor scope (pre ++ inner.name) = .ok path → P path inner.parameters.length) :
    (arg : Argument) → ∀ {param : Parameter} {expr : Expr}, Fits pre owner helpers arg param →
      emitArgument scope arg = .ok expr → expr.CallsOnly P
  | .parameter name source isLast, param, expr, _, hemit => by
      simp only [emitArgument, bind_eq_ok_iff, pure_eq_ok_iff] at hemit
      obtain ⟨ident, -, rfl⟩ := hemit
      exact .name ident
  | .call name function arguments nullable isLast, param, expr, hfits, hemit => by
      simp only [emitArgument, bind_eq_ok_iff, pure_eq_ok_iff, emitArguments_eq_ok_iff] at hemit
      obtain ⟨path, hpath, exprs, hexprs, rfl⟩ := hemit
      cases hfits with
      | @call _ inner _ _ hinner _ hargs =>
          have hmem : inner ∈ owner.nested := List.mem_of_find?_eq_some hinner
          have harity : exprs.length = inner.parameters.length :=
            hexprs.length_eq.symm.trans hargs.length_eq
          have hcall : (Expr.call path exprs).CallsOnly P :=
            .call (harity ▸ hcalls inner hmem path hpath)
              (callsOnly_of_forall₂_fits hsome hcalls arguments hargs hexprs)
          cases nullable with
          | false => exact hcall
          | true => exact .call hsome (List.forall_mem_singleton.mpr hcall)

/-- What the code of well-typed arguments calls. -/
theorem callsOnly_of_forall₂_fits {P : PackagePath → Nat → Prop} {scope : Scope} {pre : String}
    {owner : ClassDecl} {helpers : List Parameter} (hsome : P (plainPath [.plain "Some"]) 1)
    (hcalls : ∀ inner ∈ owner.nested, ∀ path,
      pathOfConstructor scope (pre ++ inner.name) = .ok path → P path inner.parameters.length) :
    (args : List Argument) → ∀ {params : List Parameter} {exprs : List Expr},
      List.Forall₂ (Fits pre owner helpers) args params →
      List.Forall₂ (fun arg expr => emitArgument scope arg = .ok expr) args exprs →
      ∀ expr ∈ exprs, expr.CallsOnly P
  | [], _, _, _, .nil => fun _ hmem => absurd hmem List.not_mem_nil
  | arg :: args, _, _, .cons hfits hrest, .cons hemit hexprs =>
    List.forall_mem_cons.mpr ⟨callsOnly_of_fits hsome hcalls arg hfits hemit,
      callsOnly_of_forall₂_fits hsome hcalls args hrest hexprs⟩

end

/-! ### Declared constructors -/

/-- A structure is declared with the constructor that takes every field. -/
theorem StructCode.Declares.constructs {scope : Scope} {code : StructCode}
    (h : code.Declares scope) {doc : String} {others : List Function} {items : List Item}
    (hsub : code.items doc others ⊆ items) :
    Constructs items code.ident code.cls.parameters.length := by
  refine ⟨⟨_, _, code.fields, hsub List.mem_cons_self⟩, primaryConstructor code.fields :: others,
    hsub (List.mem_cons_of_mem _ List.mem_cons_self), primaryConstructor code.fields,
    List.mem_cons_self, rfl, ?_⟩
  rw [primaryConstructor, List.length_map]
  exact h.fields.length_eq.symm

section Operation

variable {model : ClassModel} {package : PackagePath} {code : OperationCode} {file : File}
  (h : OperationCode.Declares model package code) (hfile : file.items = code.items model)
  {cls : ClassCode} (hcls : cls ∈ code.classes)

include hfile hcls

/-- A file has the items of its classes. -/
theorem exists_items_subset : ∃ doc, cls.items doc ⊆ file.items := by
  rw [hfile, OperationCode.items]
  rcases List.mem_append.mp hcls with hvars | hresponse
  · refine ⟨OperationCode.varsDoc model, fun item hitem => ?_⟩
    refine List.mem_append_left _ (List.mem_append_left _ (List.mem_append_right _ ?_))
    exact List.mem_flatMap.mpr ⟨cls, hvars, hitem⟩
  · refine ⟨OperationCode.responseDoc model, fun item hitem => ?_⟩
    refine List.mem_append_left _ (List.mem_append_right _ ?_)
    exact List.mem_flatMap.mpr ⟨cls, hresponse, hitem⟩

/-- The other constructors of a class are implemented for its structure. -/
theorem exists_impl_of_mem_others {function : Function} (hfunction : function ∈ cls.others) :
    ∃ functions, .impl cls.outer.ident functions ∈ file.items ∧ function ∈ functions := by
  obtain ⟨doc, hsub⟩ := exists_items_subset hfile hcls
  exact ⟨primaryConstructor cls.outer.fields :: cls.others,
    hsub (List.mem_append_left _ (List.mem_cons_of_mem _ List.mem_cons_self)),
    List.mem_cons_of_mem _ hfunction⟩

include h

/-- A class is declared with its constructor. -/
theorem OperationCode.Declares.constructs :
    Constructs file.items cls.outer.ident cls.outer.cls.parameters.length := by
  obtain ⟨doc, hsub⟩ := exists_items_subset hfile hcls
  exact (h.classes cls hcls).outer.constructs
    (List.Subset.trans (List.subset_append_left _ _) hsub)

/-- **Nested classes are declared with their constructors** in the module of their class. -/
theorem OperationCode.Declares.constructsIn {inner : StructCode} (hinner : inner ∈ cls.nested) :
    ∃ docs items, .module docs cls.nestedModule items ∈ file.items ∧
      Constructs items inner.ident inner.cls.parameters.length := by
  obtain ⟨doc, hsub⟩ := exists_items_subset hfile hcls
  have hempty : cls.nested.isEmpty = false :=
    Bool.eq_false_iff.mpr fun hempty => List.ne_nil_of_mem hinner (List.isEmpty_iff.mp hempty)
  have hmodule : ∃ docs, .module docs cls.nestedModule (imports :: nestedItems cls.nested) ∈
      cls.items doc := by
    rw [ClassCode.items, ClassCode.inside, hempty]
    exact ⟨_, List.mem_append_right _ List.mem_cons_self⟩
  obtain ⟨docs, hmodule⟩ := hmodule
  have hitems : inner.items (nestedDoc inner.cls) [] ⊆ imports :: nestedItems cls.nested :=
    fun item hitem => List.mem_cons_of_mem _ (List.mem_flatMap.mpr ⟨inner, hinner, hitem⟩)
  exact ⟨docs, _, hsub hmodule, ((h.classes cls hcls).nested inner hinner).constructs hitems⟩

/-- **A function rebuilds with constructors of the file** if it passes on well-typed arguments and
calls nested classes by the right paths. -/
theorem OperationCode.Declares.rebuilds {scope : Scope} {pre : String} {helpers : List Parameter}
    {arguments : List Argument} {args : List Expr} {path : Ident → Ident → PackagePath}
    {head : Ident} {function : Function}
    (hfits : List.Forall₂ (Fits pre cls.outer.cls helpers) arguments cls.outer.cls.parameters)
    (hemit : emitArguments scope arguments = .ok args)
    (hbody : function.body = .call (plainPath [head, .plain "new"]) args)
    (hpaths : ∀ inner ∈ cls.outer.cls.nested, ∀ ident, Ident.ofTypeName inner.name = .ok ident →
      pathOfConstructor scope (pre ++ inner.name) = .ok (path cls.nestedModule ident)) :
    file.Rebuilds path cls.outer.ident head function := by
  have hexprs := emitArguments_eq_ok_iff.mp hemit
  refine ⟨args, hbody, ?_, callsOnly_of_forall₂_fits (Or.inl ⟨rfl, rfl⟩) ?_ arguments hfits
    hexprs⟩
  · rw [← hexprs.length_eq, hfits.length_eq]
    exact h.constructs hfile hcls
  · intro inner hinner function hfunction
    have hpath := hpaths inner hinner
    rw [← (h.classes cls hcls).classes] at hinner
    obtain ⟨inner, hmem, rfl⟩ := List.mem_map.mp hinner
    obtain ⟨docs, items, hmodule, hconstructs⟩ := h.constructsIn hfile hcls hmem
    rw [hpath _ ((h.classes cls hcls).nested inner hmem).ident] at hfunction
    obtain rfl := Except.ok.inj hfunction
    exact Or.inr ⟨docs, _, items, _, hmodule, hconstructs, rfl⟩

end Operation

/-! ### Functions that rebuild variables -/

/-- Functions of a file that take flattened parameters are told from the others by their names. -/
theorem functions_cases {model : ClassModel} {path : PackagePath} {code : OperationCode}
    {file : File} (h : OperationCode.Declares model path code)
    (hfile : file.items = code.items model) {function : Function}
    (hfunction : function ∈ file.scopes.flatten.flatMap Item.functions) :
    function.name = .plain "new" ∨
      (function.name = .plain "from_flattened" ∧ ∃ cls ∈ code.classes, function ∈ cls.others) ∨
      (function.name = .plain "variables" ∧ ∃ cls, code.vars = some (cls, function)) := by
  rw [functions_scopes hfile, List.mem_append, List.mem_append] at hfunction
  rcases hfunction with (hclass | hhelper) | hnested
  · obtain ⟨cls, hcls, hclass⟩ := List.mem_flatMap.mp hclass
    rcases List.mem_cons.mp hclass with rfl | hother
    · exact Or.inl rfl
    · obtain ⟨constructor, -, hemit⟩ := exists_left_of_forall₂ (h.classes cls hcls).others hother
      simp only [flattenedConstructor, bind_eq_ok_iff, pure_eq_ok_iff] at hemit
      obtain ⟨_, -, _, -, rfl⟩ := hemit
      exact Or.inr (Or.inl ⟨rfl, cls, hcls, hother⟩)
  · rw [Option.mem_toList, Option.map_eq_some_iff] at hhelper
    obtain ⟨⟨cls, _⟩, hvars, rfl⟩ := hhelper
    obtain ⟨_, _, -, -, hfunction⟩ := h.helper cls _ hvars
    exact Or.inr (Or.inr ⟨by rw [hfunction]; rfl, cls, hvars⟩)
  · obtain ⟨cls, -, hnested⟩ := List.mem_flatMap.mp hnested
    obtain ⟨inner, -, rfl⟩ := List.mem_map.mp hnested
    exact Or.inl rfl

section Model

variable {schema : Schema} {package : String} {operation : Operation} {model : ClassModel}
  {path : PackagePath} {code : OperationCode} {file : File}

/-- Where the fields of each class become distinct identifiers, rebuilt variables are well typed. -/
theorem fits_of_rebuilds (hkeyed : schema.Keyed) (hplain : PlainNames schema) {cls : ClassDecl}
    {bindings : List Binding} {visited : List QueuedType} {flat : FlatVariables}
    (hrebuilds : Rebuilds schema operation model cls bindings visited flat)
    (hseparates : cls.Separates) (pre : String) :
    List.Forall₂ (Fits pre cls flat.parameters) (flat.arguments pre) cls.parameters := by
  rw [hrebuilds.parameters]
  refine fits_arguments hkeyed hrebuilds.resolved hrebuilds.discovered (fun queued hqueued => ?_)
    hplain hrebuilds.flattened hrebuilds.nested pre
  have hmem : queued.decl ∈ cls :: cls.nested := by
    rw [hrebuilds.nested]
    exact List.mem_cons_of_mem _ (List.mem_map_of_mem hqueued)
  have hdistinct : ((queued.decl.parameters.map (·.name)).map Ident.ofValueName).Nodup := by
    rw [List.map_map]
    exact hseparates.2 queued.decl hmem
  have hnames := hdistinct.of_map _
  rwa [QueuedType.decl, classOf, Parameter.map_name_markLast, List.map_map] at hnames

variable (hkeyed : schema.Keyed) (hplain : PlainNames schema)
  (hnames : GoesByNames schema operation)
  (hmodel : ClassModel.ofOperation schema package operation = .ok model)
  (h : OperationCode.Declares model path code) (hfile : file.items = code.items model)

include hkeyed hplain hnames hmodel h hfile

/-- **The constructor that takes flattened parameters** calls those in the module of its class. -/
theorem rebuilds_of_mem_others {cls : ClassCode} (hcls : cls ∈ code.classes) {function : Function}
    (hfunction : function ∈ cls.others) :
    file.Rebuilds (fun nestedModule type => plainPath [nestedModule, type, .plain "new"])
      cls.outer.ident selfIdent function := by
  obtain ⟨bindings, visited, flat, hrebuilds, hemit⟩ :=
    exists_rebuilds_of_mem_others hmodel h hcls hfunction
  simp only [flattenedConstructor, bind_eq_ok_iff, pure_eq_ok_iff] at hemit
  obtain ⟨_, -, args, hargs, rfl⟩ := hemit
  have hfits := fits_of_rebuilds hkeyed hplain hrebuilds (h.classes cls hcls).separates ""
  refine h.rebuilds hfile hcls hfits hargs rfl fun inner hinner ident hident => ?_
  have htop := h.mem_topClasses hcls
  rw [String.empty_append]
  exact pathOfConstructor_type (isName_of_mem_nested hmodel hnames htop hinner) hident

/-- **The function that builds the variables** calls constructors in the module of their class, by
their whole paths. -/
theorem rebuilds_helper {cls : ClassCode} {function : Function}
    (hvars : code.vars = some (cls, function)) {module : Ident}
    (hmodule : Ident.ofValueName operation.name = .ok module) :
    file.Rebuilds (fun nestedModule type => { path with
        segments := path.segments ++
          (plainPath [module, nestedModule, type, .plain "new"]).segments })
      cls.outer.ident cls.outer.ident function := by
  have hcls : cls ∈ code.classes := by
    rw [OperationCode.classes, hvars]
    exact List.mem_cons_self
  have hdeclares := h.classes cls hcls
  have hclass : model.variablesClass = some cls.outer.cls := by
    rw [← h.vars, hvars]
    rfl
  obtain ⟨bindings, visited, flat, hrebuilds⟩ := exists_rebuilds hmodel hclass
  obtain ⟨parameters, args, -, hargs, rfl⟩ := h.helper cls function hvars
  rw [hrebuilds.helperArguments] at hargs
  have hfits := fits_of_rebuilds hkeyed hplain hrebuilds hdeclares.separates
    (operation.name ++ "." ++ nameOfVariables operation.name ++ ".")
  refine h.rebuilds hfile hcls hfits hargs rfl fun inner hinner ident hident => ?_
  have htop := h.mem_topClasses hcls
  have hname := (isNamedFor_of_ofOperation hmodel).vars _ hclass
  exact pathOfConstructor_qualified (isName_of_mem_nested hmodel hnames htop hinner) hident
    hnames.name (isName_append_topSuffix hnames.name (by decide)) hmodule
    (hname ▸ hdeclares.nestedModule)

end Model

/-- A file has a function that builds the variables, if there are any. -/
theorem exists_helper {model : ClassModel} {file : File} (h : emitOperation model = .ok file)
    (hvars : model.variablesClass ≠ none) :
    ∃ function ∈ file.scopes.flatten.flatMap Item.functions,
      function.name = .plain "variables" := by
  obtain ⟨path, code, -, hcode, hitems⟩ := emitOperation_eq_ok h
  rw [functions_scopes hitems]
  cases hcls : code.vars with
  | none =>
      rw [← hcode.vars, hcls] at hvars
      exact absurd rfl hvars
  | some vars =>
      obtain ⟨_, _, -, -, hfunction⟩ := hcode.helper vars.1 vars.2 hcls
      refine ⟨vars.2, List.mem_append_left _ (List.mem_append_right _ List.mem_cons_self), ?_⟩
      rw [hfunction]
      rfl

/-- The index of operations declares a module for each of them. -/
theorem moduleFile_mem_of_emitIndex {operations : List String} {index : File}
    (h : emitIndex operations = .ok index) {operation : String} (hmem : operation ∈ operations)
    {module : Ident} (hmodule : Ident.ofValueName operation = .ok module) :
    .moduleFile module ∈ index.items := by
  simp only [emitIndex, bind_eq_ok_iff, pure_eq_ok_iff] at h
  obtain ⟨modules, hmodules, rfl⟩ := h
  obtain ⟨other, hother, heq⟩ := exists_mem_of_mapM hmodules hmem
  obtain rfl := Except.ok.inj (hmodule.symm.trans heq)
  exact List.mem_map_of_mem hother

end Emit

open Emit Code

/-- **When an operation has code, and what that code calls.** Let an operation and its schema go by
names that become identifiers. The code of its model is not emitted exactly when two fields of one
class, or two classes nested in one, become the same identifier, and this is always what is
reported. Where it is emitted, the function that takes flattened parameters calls constructors in
modules of the file by the module and the structure, and the function that builds the variables
calls them by their whole paths, with the module that the index declares for the operation. Each of
them is declared there, and is given as many values as it takes. -/
theorem emitOperation_constructs {schema : Schema} {package : String} {operation : Operation}
    {model : ClassModel} {path : PackagePath} (hkeyed : schema.Keyed)
    (hplain : Build.PlainNames schema) (hnames : GoesByNames schema operation)
    (hidents : HasTypeIdents schema operation)
    (h : ClassModel.ofOperation schema package operation = .ok model)
    (hpackage : PackagePath.parse model.package = .ok path) :
    ((∃ e, emitOperation model = .error e) ↔ ∃ cls ∈ model.topClasses, ¬cls.Separates) ∧
    (∀ e, emitOperation model = .error e → ∃ clash name, e = .namingCollision clash name) ∧
    ∀ file, emitOperation model = .ok file →
      ∃ module, Ident.ofValueName model.operationName = .ok module ∧
        (∀ operations index, emitIndex operations = .ok index →
          model.operationName ∈ operations → .moduleFile module ∈ index.items) ∧
        ∀ function ∈ file.scopes.flatten.flatMap Item.functions,
          (function.name = .plain "from_flattened" → ∃ type functions,
            .impl type functions ∈ file.items ∧ function ∈ functions ∧
            file.Rebuilds (fun nestedModule type => plainPath [nestedModule, type, .plain "new"])
              type selfIdent function) ∧
          (function.name = .plain "variables" → ∃ type,
            file.Rebuilds (fun nestedModule type => { path with
                segments := path.segments ++
                  (plainPath [module, nestedModule, type, .plain "new"]).segments })
              type type function) := by
  have hcause := failsOnly_separates hkeyed hidents hnames hplain h hpackage
  refine ⟨⟨fun ⟨e, he⟩ => (hcause e he).2, ?_⟩, fun e he => (hcause e he).1, ?_⟩
  · rintro ⟨cls, hcls, hrepeated⟩
    cases hemit : emitOperation model with
    | error e => exact ⟨e, rfl⟩
    | ok file => exact absurd (separates_of_emitOperation hemit cls hcls) hrepeated
  · intro file hfile
    obtain ⟨path', code, hpath, hcode, hitems⟩ := emitOperation_eq_ok hfile
    obtain rfl := Except.ok.inj (hpackage.symm.trans hpath)
    obtain ⟨module, hmodule⟩ := Ident.exists_ofValueName hnames.name
    rw [Build.operationName_of_ofOperation h]
    refine ⟨module, hmodule, fun operations index hindex hmem =>
      moduleFile_mem_of_emitIndex hindex hmem hmodule, fun function hfunction => ?_⟩
    -- The name of a function tells which kind it is of.
    have hnew : ∀ name ∈ ["from_flattened", "variables"], Ident.plain "new" ≠ .plain name := by
      decide
    have hkinds : Ident.plain "from_flattened" ≠ .plain "variables" := by decide
    rcases functions_cases hcode hitems hfunction with
      hname | ⟨hname, cls, hcls, hother⟩ | ⟨hname, cls, hvars⟩
    · exact ⟨fun heq => absurd (hname.symm.trans heq) (hnew _ (by simp)),
        fun heq => absurd (hname.symm.trans heq) (hnew _ (by simp))⟩
    · refine ⟨fun _ => ?_, fun heq => absurd (hname.symm.trans heq) hkinds⟩
      obtain ⟨functions, himpl, hmem⟩ := exists_impl_of_mem_others hitems hcls hother
      exact ⟨_, functions, himpl, hmem,
        rebuilds_of_mem_others hkeyed hplain hnames h hcode hitems hcls hother⟩
    · exact ⟨fun heq => absurd (heq.symm.trans hname) hkinds, fun _ =>
        ⟨_, rebuilds_helper hkeyed hplain hnames h hcode hitems hvars hmodule⟩⟩

/-- The variables that pay a fee are built by the constructor of the fee. -/
theorem emitOperation_constructs_payFee :
    ∃ model file, ClassModel.ofOperation loanSchema "crate" payFee = .ok model ∧
      emitOperation model = .ok file ∧
      ∃ function ∈ file.scopes.flatten.flatMap Item.functions,
        function.name = .plain "variables" ∧ ∃ type,
          file.Rebuilds (fun nestedModule type => plainPath
            [.plain "crate", .plain "pay", nestedModule, type, .plain "new"]) type type function := by
  obtain ⟨model, hmodel, hpackage, hseparates, hvars⟩ :
      ∃ model, ClassModel.ofOperation loanSchema "crate" payFee = .ok model ∧
        PackagePath.parse model.package = .ok (plainPath [.plain "crate"]) ∧
        (∀ cls ∈ model.topClasses, cls.Separates) ∧ model.variablesClass ≠ none :=
    ⟨_, rfl, by decide +kernel, by decide +kernel, Option.some_ne_none _⟩
  obtain ⟨hfails, -, hcalls⟩ := emitOperation_constructs (by decide) (by decide)
    ⟨by decide, by decide, by decide, by decide, by decide⟩
    ⟨by decide +kernel, by decide +kernel⟩ hmodel hpackage
  cases hemit : emitOperation model with
  | error e =>
      obtain ⟨cls, hcls, hrepeated⟩ := hfails.mp ⟨e, hemit⟩
      exact absurd (hseparates cls hcls) hrepeated
  | ok file =>
      obtain ⟨module, hmodule, -, hfunctions⟩ := hcalls file hemit
      have hpay : Ident.ofValueName payFee.name = .ok (.plain "pay") := by decide +kernel
      rw [Build.operationName_of_ofOperation hmodel, hpay] at hmodule
      obtain rfl := Except.ok.inj hmodule
      obtain ⟨function, hmem, hname⟩ := exists_helper hemit hvars
      exact ⟨model, file, hmodel, hemit, function, hmem, hname,
        (hfunctions function hmem).2 hname⟩

end ClientSdk
