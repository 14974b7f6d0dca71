import ClientSdk.Proofs.Build.Model
import ClientSdk.Proofs.Projection.Rearrangement

/-!
# Rearranged Operations

Pick lists and selection sets count as sets only. An operation with its picks repeated or in
another order, with its selections below the root in another order, or with a field written in two
entries, has the same class model, or none in both cases. The search for nested classes compares
normal forms, and flattening goes by the fields that take part, so neither of them can tell a
pick list of all fields from no directive.

## Main definitions

* `Operation.Rearranges`: one change to an operation that is no change to what it asks for.
* `Operation.Rearranged`: any sequence of such changes, in both directions.

## Main results

* `Build.mergeBinding_mergeBinding`: merging twice is merging the union.
* `Build.addVariables_congr`: like bindings have the same class.
* `ofOperation_rearranged`: rearranged operations have the same class model.
-/

namespace ClientSdk

/-! ### Rearrangement -/

/-- One change to an operation that is no change to what it asks for. -/
inductive Operation.Rearranges (schema : Schema) : Operation → Operation → Prop
  /-- The names on a pick list come in another order, or more often. -/
  | pick (operation : Operation) (before after : List Variable) (var : Variable)
      {names names' : List String} : (∀ name, name ∈ names ↔ name ∈ names') →
      Rearranges schema
        { operation with vars := before ++ { var with pick := some names } :: after }
        { operation with vars := before ++ { var with pick := some names' } :: after }
  /-- A pick list that names the declared fields of the type of its variable is left out. -/
  | fullPick (operation : Operation) (before after : List Variable) (var : Variable)
      {names : List String} : (∀ type, schema.get? var.type.leafName = some type →
        ∀ name, name ∈ names ↔ name ∈ type.fields.map (·.name)) →
      Rearranges schema
        { operation with vars := before ++ { var with pick := some names } :: after }
        { operation with vars := before ++ { var with pick := none } :: after }
  /-- What is selected below a field of the root is divided between two entries for it. -/
  | divide (operation : Operation) (before after : List Selection) (name : String)
      (alias? : Option String) {first second : List Selection} : first ≠ [] → second ≠ [] →
      Rearranges schema
        { operation with selections := before ++ .field name alias? (first ++ second) :: after }
        { operation with selections :=
            before ++ .field name alias? first :: .field name alias? second :: after }
  /-- What is selected below a field of the root is rearranged. -/
  | inside (operation : Operation) (before after : List Selection) (name : String)
      (alias? : Option String) {selections selections' : List Selection} :
      Selection.Rearranged selections selections' →
      Rearranges schema
        { operation with selections := before ++ .field name alias? selections :: after }
        { operation with selections := before ++ .field name alias? selections' :: after }

/-- The operations differ by a sequence of changes that are no changes to what is asked for, each
of them made or taken back. -/
def Operation.Rearranged (schema : Schema) : Operation → Operation → Prop :=
  Relation.EqvGen (Operation.Rearranges schema)

namespace Build

variable {schema : Schema}

/-! ### Like bindings -/

/-- Two bindings that differ at most in projections that a generated class does not tell apart. -/
structure Alike (schema : Schema) (binding binding' : Binding) : Prop where
  /-- The names are the same. -/
  name_eq : binding.name = binding'.name
  /-- The types are the same. -/
  type_eq : binding.type = binding'.type
  /-- The definitions are the same. -/
  definition_eq : binding.definition = binding'.definition
  /-- The projections are alike. -/
  projection : Projection.Alike schema binding.definition binding.projection
    binding'.projection

/-- A binding is like itself. -/
theorem alike_refl (binding : Binding) : Alike schema binding binding :=
  ⟨rfl, rfl, rfl, rfl, rfl, fun _ _ => rfl⟩

/-- The search for nested classes starts with the same types. -/
theorem reachRoots_congr {operation : String} {bindings bindings' : List Binding}
    (h : List.Forall₂ (Alike schema) bindings bindings') :
    reachRoots schema operation bindings = reachRoots schema operation bindings' := by
  rw [reachRoots, reachRoots]
  generalize ({ reached := [], queue := [] } : Discovery) = state
  induction h generalizing state with
  | nil => rfl
  | @cons binding binding' bindings bindings' hfirst _ ih =>
      have hscalar : binding.isScalar = binding'.isScalar := by
        rw [Binding.isScalar, Binding.isScalar, hfirst.definition_eq]
      have hqueued : reach operation state
            { definition := binding.definition
              projection := binding.projection.normalize schema binding.definition
              path := [binding.definition.name] } =
          reach operation state
            { definition := binding'.definition
              projection := binding'.projection.normalize schema binding'.definition
              path := [binding'.definition.name] } := by
        rw [hfirst.projection.normalize_eq, hfirst.definition_eq]
      rw [List.filter_cons, List.filter_cons, hscalar]
      cases binding'.isScalar with
      | true => exact ih state
      | false =>
          rw [Bool.not_false, if_pos rfl, if_pos rfl, List.foldlM_cons, List.foldlM_cons, hqueued]
          exact congrArg _ (funext fun next => ih next)

/-- Like bindings have the same nested classes. -/
theorem topClass_congr {operation name : String} {policy : ListPolicy}
    {bindings bindings' : List Binding} (h : List.Forall₂ (Alike schema) bindings bindings') :
    topClass schema operation name bindings policy =
      topClass schema operation name bindings' policy := by
  have hparameters : bindings.map Binding.parameter = bindings'.map Binding.parameter := by
    rw [← List.forall₂_eq_eq_eq, List.forall₂_map_left_iff, List.forall₂_map_right_iff]
    exact h.imp fun binding binding' halike => by
      rw [Binding.parameter, Binding.parameter, halike.name_eq, halike.type_eq]
  rw [topClass, topClass, innerClasses, innerClasses, reachRoots_congr h, h.length_eq,
    hparameters]

/-- Projections that are alike give a value the same shape. -/
theorem shapeOf_congr {definition : TypeDef} {p q : Projection}
    (h : Projection.Alike schema definition p q) (fuel : Nat) (expanding path : List String)
    (type : TypeRef) :
    shapeOf schema fuel expanding path type definition p =
      shapeOf schema fuel expanding path type definition q := by
  rw [shapeOf.eq_def, shapeOf.eq_def]
  dsimp only
  rw [h.fieldsOf_eq]
  split
  · rfl
  · split
    · rfl
    · cases fuel with
      | zero => rfl
      | succ fuel =>
          cases hfields : q.fieldsOf definition with
          | error e => rfl
          | ok fields =>
              obtain ⟨-, rfl⟩ := Projection.fieldsOf_eq_ok_iff.mp hfields
              dsimp only [bind, Except.bind]
              rw [mapM_congr fun field hfield => ?_]
              rw [h.child_eq field (List.mem_filter.mp hfield).1]

/-- Flattening gives the same parameters and arguments for like bindings. -/
theorem flattenVariables_congr {operation : String} {bindings bindings' : List Binding}
    (h : List.Forall₂ (Alike schema) bindings bindings') :
    flattenVariables schema operation bindings = flattenVariables schema operation bindings' := by
  have hshapes : bindings.mapM (shapeOfBinding schema) =
      bindings'.mapM (shapeOfBinding schema) := by
    induction h with
    | nil => rfl
    | @cons binding binding' _ _ hfirst _ ih =>
        have hshape : shapeOfBinding schema binding = shapeOfBinding schema binding' := by
          rw [shapeOfBinding, shapeOfBinding, shapeOf_congr hfirst.projection, hfirst.name_eq,
            hfirst.type_eq, hfirst.definition_eq]
        rw [List.mapM_cons, List.mapM_cons, hshape, ih]
  rw [flattenVariables, flattenVariables, hshapes]

/-- **Like bindings have the same class**, with the same constructors and the same helper. -/
theorem addVariables_congr {model : ClassModel} {bindings bindings' : List Binding}
    (h : List.Forall₂ (Alike schema) bindings bindings') :
    addVariables schema model bindings = addVariables schema model bindings' := by
  have hexpanded : bindings.any (·.isExpanded) = bindings'.any (·.isExpanded) := by
    induction h with
    | nil => rfl
    | @cons binding binding' _ _ hfirst _ ih =>
        have hsame : binding.isExpanded = binding'.isExpanded := by
          rw [Binding.isExpanded, Binding.isExpanded, Binding.isScalar, Binding.isScalar,
            hfirst.type_eq, hfirst.definition_eq]
        rw [List.any_cons, List.any_cons, hsame, ih]
  have hempty : bindings.isEmpty = bindings'.isEmpty := by
    cases h with
    | nil => rfl
    | cons => rfl
  rw [addVariables, addVariables, hempty, hexpanded]
  dsimp only
  rw [topClass_congr h, flattenVariables_congr h]

/-! ### Variables -/

section

variable {operation : String} {var var' : Variable}

/-- Variables of one name and type have like bindings when their pick lists are alike. -/
theorem variableBinding_alike (hname : var.name = var'.name) (htype : var.type = var'.type)
    (hpick : ∀ type, schema.get? var.type.leafName = some type →
      SameOutcome (Projection.Alike schema type) (Projection.ofPick var type)
        (Projection.ofPick var' type)) :
    SameOutcome (Alike schema) (variableBinding schema operation var)
      (variableBinding schema operation var') := by
  rw [variableBinding, variableBinding, ← hname, ← htype]
  refine (SameOutcome.refl _).bind fun type type' hget heq => ?_
  subst heq
  refine (hpick type (Augment.typeNamed_eq_ok_iff.mp hget)).bind fun p q _ halike => ?_
  exact .ok ⟨rfl, rfl, rfl, halike⟩

end

/-- Where one variable has a like binding, all the variables have like bindings. -/
theorem variableBindings_alike {operation : Operation} {before after : List Variable}
    {var var' : Variable} (h : SameOutcome (Alike schema)
      (variableBinding schema operation.name var) (variableBinding schema operation.name var')) :
    SameOutcome (List.Forall₂ (Alike schema))
      (variableBindings schema { operation with vars := before ++ var :: after })
      (variableBindings schema { operation with vars := before ++ var' :: after }) := by
  have hsame : ∀ vars : List Variable, List.Forall₂ (fun var var' => SameOutcome (Alike schema)
      (variableBinding schema operation.name var) (variableBinding schema operation.name var'))
      vars vars := fun vars => List.forall₂_same.mpr fun var _ =>
    (SameOutcome.refl _).mono fun binding _ heq => heq ▸ alike_refl binding
  exact .mapM (List.rel_append (hsame before) (.cons h (hsame after)))

/-! ### Selections -/

/-- **Merging twice is merging the union**, also where the first merging makes a binding. -/
theorem mergeBinding_mergeBinding {key : String} {root : TypeDef} {field : FieldDef}
    {p q : Projection} (hp : p.Ordered) (hq : q.Ordered) {bindings : List Binding}
    (hbindings : ∀ binding ∈ bindings, binding.projection.Ordered) :
    (do
      let merged ← mergeBinding key p (responseBinding schema root field key p) bindings
      mergeBinding key q (responseBinding schema root field key q) merged) =
    mergeBinding key (p.merge q) (responseBinding schema root field key (p.merge q))
      bindings := by
  induction bindings with
  | nil =>
      simp only [mergeBinding, responseBinding]
      cases Augment.typeNamed schema field.type.leafName (.field root.name field.name) with
      | error e => rfl
      | ok definition => simp [bind, Except.bind, pure, Except.pure, mergeBinding]
  | cons binding rest ih =>
      obtain ⟨hbinding, hrest⟩ := List.forall_mem_cons.mp hbindings
      rw [mergeBinding, mergeBinding]
      by_cases hname : binding.name = key
      · rw [if_pos hname, if_pos hname, ← Projection.merge_assoc hbinding hp hq]
        exact if_pos hname
      · rw [if_neg hname, if_neg hname, ← ih hrest]
        cases mergeBinding key p (responseBinding schema root field key p) rest with
        | error e => rfl
        | ok merged => exact if_neg hname

/-- A field that is divided between two entries is read and merged as in one entry. -/
theorem addResponseBinding_divide {operation : Operation} {bindings : List Binding}
    (hbindings : ∀ binding ∈ bindings, binding.projection.Ordered) {name : String}
    {alias? : Option String} {first second : List Selection} (hfirst : first ≠ [])
    (hsecond : second ≠ []) :
    SameOutcome Eq
      (addResponseBinding schema operation bindings (.field name alias? (first ++ second)))
      (addResponseBinding schema operation bindings (.field name alias? first) >>=
        fun merged => addResponseBinding schema operation merged (.field name alias? second)) := by
  simp only [addResponseBinding]
  cases (schema.root operation.kind).field? name with
  | none => exact .error _ _
  | some field =>
      dsimp only
      generalize operation.name ++ "." ++ alias?.getD name = location
      have hread := @Projection.exists_ofSelections_append_iff first second location
      cases hq : Projection.ofSelections location first with
      | error e =>
          cases hp : Projection.ofSelections location (first ++ second) with
          | error e' => exact .error _ _
          | ok p =>
              obtain ⟨q, hq'⟩ := (hread.mp ⟨p, hp⟩).1
              cases hq.symm.trans hq'
      | ok q =>
          cases hr : Projection.ofSelections location second with
          | error e =>
              cases hp : Projection.ofSelections location (first ++ second) with
              | ok p =>
                  obtain ⟨r, hr'⟩ := (hread.mp ⟨p, hp⟩).2
                  cases hr.symm.trans hr'
              | error e' =>
                  -- The second entry is not read, whether or not the first can be merged.
                  dsimp only [bind, Except.bind]
                  split
                  · exact .error _ _
                  · exact .error _ _
          | ok r =>
              obtain ⟨p, hp⟩ := hread.mpr ⟨⟨q, hq⟩, r, hr⟩
              obtain rfl := Projection.ofSelections_append hfirst hsecond hp hq hr
              have hmerge := @mergeBinding_mergeBinding schema (alias?.getD name)
                (schema.root operation.kind) field q r (Projection.ordered_of_ofSelections hq)
                (Projection.ordered_of_ofSelections hr) bindings hbindings
              rw [hp]
              exact hmerge ▸ .refl _

/-- Entries after the same ones, which lead to the same bindings, have the same outcome. -/
theorem responseBindings_same {operation : Operation} {before entries entries' : List Selection}
    (h : ∀ bindings : List Binding, (∀ binding ∈ bindings, binding.projection.Ordered) →
      SameOutcome Eq (entries.foldlM (addResponseBinding schema operation) bindings)
        (entries'.foldlM (addResponseBinding schema operation) bindings)) :
    SameOutcome Eq
      (responseBindings schema { operation with selections := before ++ entries })
      (responseBindings schema { operation with selections := before ++ entries' }) := by
  rw [responseBindings, responseBindings, List.foldlM_append, List.foldlM_append]
  refine (SameOutcome.refl _).bind fun bindings bindings' hbindings heq => ?_
  subst heq
  refine h bindings fun binding hmem => ?_
  exact ((@bindings_of_responseBindings schema { operation with selections := before } bindings
    hbindings).2 binding hmem).ordered

/-! ### Operations -/

/-- Operations whose variables have like bindings and whose selections have the same bindings have
the same class model. -/
theorem ofOperation_same {package : String} {operation operation' : Operation}
    (hname : operation.name = operation'.name) (hkind : operation.kind = operation'.kind)
    (hvars : SameOutcome (List.Forall₂ (Alike schema)) (variableBindings schema operation)
      (variableBindings schema operation'))
    (hfields : SameOutcome Eq (responseBindings schema operation)
      (responseBindings schema operation')) :
    SameOutcome Eq (ClassModel.ofOperation schema package operation)
      (ClassModel.ofOperation schema package operation') := by
  rw [ClassModel.ofOperation, ClassModel.ofOperation]
  refine hvars.bind fun vars vars' _ halike => hfields.bind fun fields fields' _ heq => ?_
  subst heq
  rw [hname, hkind]
  dsimp only
  rw [addVariables_congr halike]
  exact .refl _

/-- One change of a rearrangement does not change the class model. -/
theorem ofOperation_rearranges (hdistinct : schema.DistinctFields) {package : String}
    {operation operation' : Operation} (h : operation.Rearranges schema operation') :
    SameOutcome Eq (ClassModel.ofOperation schema package operation)
      (ClassModel.ofOperation schema package operation') := by
  have hsame : ∀ bindings : List Binding, List.Forall₂ (Alike schema) bindings bindings :=
    fun bindings => List.forall₂_same.mpr fun binding _ => alike_refl binding
  have hunchanged : ∀ operation, SameOutcome (List.Forall₂ (Alike schema))
      (variableBindings schema operation) (variableBindings schema operation) :=
    fun operation => (SameOutcome.refl _).mono fun bindings _ heq => heq ▸ hsame bindings
  cases h with
  | pick operation before after var hnames =>
      refine ofOperation_same rfl rfl (variableBindings_alike ?_) (.refl _)
      refine variableBinding_alike rfl rfl fun type _ => ?_
      refine (Projection.ofPick_congr hnames).mono fun p _ heq => heq ▸ ?_
      exact ⟨rfl, rfl, fun _ _ => rfl⟩
  | fullPick operation before after var hnames =>
      refine ofOperation_same rfl rfl (variableBindings_alike ?_) (.refl _)
      refine variableBinding_alike rfl rfl fun type hget => ?_
      exact Projection.ofPick_full (hdistinct.of_get? hget) (hnames type hget)
  | divide operation before after name alias? hfirst hsecond =>
      refine ofOperation_same rfl rfl (hunchanged _)
        (responseBindings_same fun bindings hbindings => ?_)
      rw [List.foldlM_cons, List.foldlM_cons]
      simp only [List.foldlM_cons]
      rw [← bind_assoc]
      refine (addResponseBinding_divide hbindings hfirst hsecond).bind fun merged _ _ heq => ?_
      exact heq ▸ .refl _
  | inside operation before after name alias? hinside =>
      refine ofOperation_same rfl rfl (hunchanged _)
        (responseBindings_same fun bindings _ => ?_)
      rw [List.foldlM_cons, List.foldlM_cons]
      refine SameOutcome.bind (R := Eq) ?_ fun merged _ _ heq => heq ▸ .refl _
      simp only [addResponseBinding]
      cases (schema.root operation.kind).field? name with
      | none => exact .error _ _
      | some field =>
          refine (Projection.ofSelections_rearranged hinside _).bind fun p _ _ heq => ?_
          exact heq ▸ .refl _

end Build

/-- **Rearranged operations have the same class model.** Picks and selections below the root count
as sets, and a pick list of all fields is no restriction: whatever an operation is changed to in
these ways, its class model cannot be built exactly when that of the given operation cannot, and
else the two are equal. -/
theorem ofOperation_rearranged {schema : Schema} (hdistinct : schema.DistinctFields)
    {operation operation' : Operation} (h : operation.Rearranged schema operation')
    (package : String) :
    ((∃ error, ClassModel.ofOperation schema package operation' = .error error) ↔
      ∃ error, ClassModel.ofOperation schema package operation = .error error) ∧
    ∀ model model', ClassModel.ofOperation schema package operation = .ok model →
      ClassModel.ofOperation schema package operation' = .ok model' → model = model' := by
  have hsame : SameOutcome Eq (ClassModel.ofOperation schema package operation)
      (ClassModel.ofOperation schema package operation') := by
    induction h with
    | rel _ _ hstep => exact Build.ofOperation_rearranges hdistinct hstep
    | refl _ => exact .refl _
    | symm _ _ _ ih => exact ih.symm
    | trans _ _ _ _ _ ih ih' => exact ih.trans ih'
  exact ⟨hsame.exists_error_iff.symm, fun model model' hmodel hmodel' =>
    hsame.rel_of_eq_ok hmodel hmodel'⟩

/-- Books with their authors, and the shelves where they are looked for. -/
def librarySchema : Schema where
  types := .ofList (standardScalars.map .givenScalar ++ [
    { name := "Book", fields := [
        { name := "title", type := .named "String" false },
        { name := "author", type := .named "Author" true }] },
    { name := "Author", fields := [
        { name := "name", type := .named "String" false },
        { name := "born", type := .named "Int" true }] },
    { name := "Shelf", kind := .input, fields := [
        { name := "label", type := .named "String" false },
        { name := "row", type := .named "Int" true }] }])
  query := { name := "Query", fields := [
    { name := "books", type := .list (.named "Book" false) false
      arguments := [{ name := "on", type := .named "Shelf" false }] }] }
  mutation := { name := "Mutation" }

/-- Finds the books on a shelf, all of whose fields are picked. -/
def findBooks : Operation where
  name := "Find"
  kind := .query
  vars := [{ name := "shelf", type := .named "Shelf" false, pick := some ["row", "label"] }]
  selections := [.field "books" none
    [.field "title" none [],
      .field "author" none [.field "name" none [], .field "born" none []]]]

/-- The same without the pick list, and with the books and their authors in two entries each. -/
def findBooksRearranged : Operation where
  name := "Find"
  kind := .query
  vars := [{ name := "shelf", type := .named "Shelf" false }]
  selections := [
    .field "books" none [.field "author" none [.field "born" none []]],
    .field "books" none [.field "author" none [.field "name" none []], .field "title" none []]]

/-- The two ways to find the books on a shelf have one class model. -/
theorem ofOperation_rearranged_findBooks :
    librarySchema.DistinctFields ∧ findBooks.Rearranged librarySchema findBooksRearranged ∧
    ∃ model, ClassModel.ofOperation librarySchema "crate" findBooks = .ok model ∧
      ClassModel.ofOperation librarySchema "crate" findBooksRearranged = .ok model := by
  have hdistinct : librarySchema.DistinctFields := by decide
  let shelf : Variable := { name := "shelf", type := .named "Shelf" false }
  let unpicked : Operation := { findBooks with vars := [shelf] }
  let born : List Selection := [.field "born" none []]
  let name : List Selection := [.field "name" none []]
  let title : List Selection := [.field "title" none []]
  have hpick : findBooks.Rearranged librarySchema unpicked := by
    refine .rel _ _ (.fullPick unpicked [] [] shelf fun type hget => ?_)
    obtain rfl := Option.some.inj hget
    intro field
    simp [or_comm]
  have hauthor : Selection.Rearranged (title ++ [.field "author" none (name ++ born)])
      (title ++ [.field "author" none (born ++ name)]) :=
    .inside title [] "author" none (.reorder (List.Perm.swap _ _ []))
  have horder : Selection.Rearranged (title ++ [.field "author" none (born ++ name)])
      (.field "author" none (born ++ name) :: title) :=
    .reorder (List.Perm.swap _ _ [])
  have hdivide : Selection.Rearranged (.field "author" none (born ++ name) :: title)
      (.field "author" none born :: .field "author" none name :: title) :=
    .divide [] title "author" none (List.cons_ne_nil _ _) (List.cons_ne_nil _ _)
  have hroot : Operation.Rearranges librarySchema
      { unpicked with selections := [.field "books" none
        (.field "author" none born :: .field "author" none name :: title)] }
      findBooksRearranged :=
    .divide unpicked [] [] "books" none (List.cons_ne_nil (.field "author" none born) [])
      (List.cons_ne_nil _ _)
  have hrearranged : findBooks.Rearranged librarySchema findBooksRearranged :=
    hpick.trans _ _ _ (.trans _ _ _ (.rel _ _ (.inside unpicked [] [] "books" none hauthor))
      (.trans _ _ _ (.rel _ _ (.inside unpicked [] [] "books" none horder))
        (.trans _ _ _ (.rel _ _ (.inside unpicked [] [] "books" none hdivide))
          (.rel _ _ hroot))))
  obtain ⟨model, hmodel⟩ : ∃ model,
      ClassModel.ofOperation librarySchema "crate" findBooks = .ok model := ⟨_, rfl⟩
  obtain ⟨model', hmodel'⟩ : ∃ model',
      ClassModel.ofOperation librarySchema "crate" findBooksRearranged = .ok model' := ⟨_, rfl⟩
  obtain rfl := (ofOperation_rearranged hdistinct hrearranged "crate").2 model model' hmodel hmodel'
  exact ⟨hdistinct, hrearranged, model, hmodel, hmodel'⟩

end ClientSdk
