import ClientSdk.Proofs.Build.Flatten
import ClientSdk.Proofs.Build.Model
import ClientSdk.Proofs.Projection.NormalForm

/-!
# Rebuilding Variables

The helper of a class model takes flattened parameters and passes the objects that they are
parts of to the constructor of the variables. Two traversals meet here. Flattening goes depth
first, with the projection of each place, and the search for nested classes goes breadth first,
with one normal projection for each type. The arguments that flattening makes fit the classes
that the search finds.

## Main definitions

* `Fits`: an argument is well typed for a parameter of a generated constructor.
* `Argument.sources`: the parameters of the helper that an argument reads, left to right.

## Main results

* `fits_arguments`: rebuilt variables are well typed, whatever constructors are called.
* `helperArguments_fit`: the arguments of the helper are well typed for the class of the
  variables, and read each parameter of the helper once, in order.
-/

namespace ClientSdk

/-! ### Well-typed arguments -/

/-- The argument is well typed for the parameter, where `owner` is the class with the nested
classes, `helpers` are the parameters of the enclosing function, and the constructors of the
nested classes are called `pre` and their names. -/
inductive Fits (pre : String) (owner : ClassDecl) (helpers : List Parameter) :
    Argument → Parameter → Prop
  | parameter (param : Parameter) {helper : Parameter} : helper ∈ helpers →
      helper.type = param.type →
      Fits pre owner helpers (.parameter param.name helper.name param.isLast) param
  | call (param : Parameter) {inner : ClassDecl} {arguments : List Argument} {nullable : Bool} :
      owner.inner? inner.name = some inner → param.type = .named inner.name nullable →
      List.Forall₂ (Fits pre owner helpers) arguments inner.parameters →
      Fits pre owner helpers
        (.call param.name (pre ++ inner.name) arguments nullable param.isLast) param

namespace Argument

mutual

/-- The parameters of the enclosing function that an argument reads, left to right. -/
def sources : Argument → List String
  | parameter _ source _ => [source]
  | call _ _ arguments _ _ => sourcesOfAll arguments

/-- The parameters of the enclosing function that a list of arguments reads. -/
def sourcesOfAll : List Argument → List String
  | [] => []
  | arg :: args => arg.sources ++ sourcesOfAll args

end

/-- The mark of the last argument does not change what is read. -/
theorem sources_withLast (isLast : Bool) (arg : Argument) :
    (arg.withLast isLast).sources = arg.sources := by
  cases arg with
  | parameter name source _ => rw [withLast, sources, sources]
  | call name function arguments nullable _ => rw [withLast, sources, sources]

/-- Marking the last argument does not change what is read. -/
theorem sourcesOfAll_markLast (args : List Argument) :
    sourcesOfAll (markLast args) = sourcesOfAll args := by
  induction args using markLast.induct with
  | case1 => rfl
  | case2 arg => simp only [markLast, sourcesOfAll, sources_withLast]
  | case3 arg args hne ih =>
      rw [markLast, sourcesOfAll, sources_withLast, ih, sourcesOfAll]
      exact hne

end Argument

/-- Arguments that fit parameters with either mark still fit when the last of each is marked. -/
theorem forall₂_fits_markLast {pre : String} {owner : ClassDecl} {helpers : List Parameter}
    {args : List Argument} {params : List Parameter}
    (h : List.Forall₂ (fun arg param => ∀ isLast,
      Fits pre owner helpers (arg.withLast isLast) { param with isLast := isLast }) args params) :
    List.Forall₂ (Fits pre owner helpers) (Argument.markLast args)
      (Parameter.markLast params) := by
  induction h with
  | nil => exact .nil
  | @cons arg param args params hfits hrest ih =>
      cases hrest with
      | nil => exact .cons (hfits true) .nil
      | cons hnext hrest => exact .cons (hfits false) ih

namespace Build

variable {schema : Schema} {bindings : List Binding} {visited : List QueuedType}

/-! ### Leaves in order -/

/-- The arguments of fields are made one by one. -/
theorem rebuildFields_eq_map (leaves : List FlatLeaf) (pre : String)
    (fields : List (String × ValueShape)) :
    rebuildFields leaves pre fields =
      fields.map fun field => rebuild leaves pre field.1 field.2 := by
  induction fields with
  | nil => rw [rebuildFields, List.map_nil]
  | cons field rest ih => rw [rebuildFields, List.map_cons, ih]

mutual

/-- A rebuilt value reads the parameters of its leaves, in order. -/
theorem sources_rebuild (leaves : List FlatLeaf) (pre name : String) :
    (shape : ValueShape) → (rebuild leaves pre name shape).sources =
      shape.leaves.map (leafParameterName leaves)
  | .leaf leaf => by
      rw [rebuild, Argument.sources, ValueShape.leaves, List.map_singleton]
  | .nested type nullable fields => by
      rw [rebuild, Argument.sources, Argument.sourcesOfAll_markLast, ValueShape.leaves]
      exact sourcesOfAll_rebuildFields leaves pre fields

/-- Rebuilt fields read the parameters of their leaves, in order. -/
theorem sourcesOfAll_rebuildFields (leaves : List FlatLeaf) (pre : String) :
    (fields : List (String × ValueShape)) →
      Argument.sourcesOfAll (rebuildFields leaves pre fields) =
        (ValueShape.leavesOfFields fields).map (leafParameterName leaves)
  | [] => by
      rw [rebuildFields, Argument.sourcesOfAll, ValueShape.leavesOfFields, List.map_nil]
  | (name, shape) :: rest => by
      rw [rebuildFields, Argument.sourcesOfAll, ValueShape.leavesOfFields, List.map_append,
        sources_rebuild leaves pre name shape, sourcesOfAll_rebuildFields leaves pre rest]

end

/-! ### Names of members -/

/-- No type of objects has a name that a generated class would write differently. -/
def PlainNames (schema : Schema) : Prop :=
  ∀ type ∈ schema.types.values, type.isScalar = false →
    isStandardScalar type.name = false ∧ isReservedName type.name = false

instance (schema : Schema) : Decidable (PlainNames schema) :=
  inferInstanceAs (Decidable (∀ type ∈ _, _))

/-- A name that is neither a standard scalar's nor reserved is the name of its members. -/
theorem memberName_eq_self {name : String} (hscalar : isStandardScalar name = false)
    (hreserved : isReservedName name = false) : memberName name = name := by
  have hid : name ≠ "ID" := by
    rintro rfl
    exact absurd hscalar (by decide)
  have hnone : afterReservedMark? name = none := by
    rwa [isReservedName, Option.isSome_eq_false_iff, Option.isNone_iff_eq_none] at hreserved
  rw [memberName, if_neg hid, hnone, Option.getD_none]

/-- A single object is a member of the type that is named like its definition. -/
theorem ofRef_eq_named (hkeyed : schema.Keyed) (hplain : PlainNames schema) {type : TypeRef}
    {definition : TypeDef} (hget : schema.get? type.leafName = some definition)
    (hscalar : definition.isScalar = false) (hlist : type.isList = false) :
    MemberType.ofRef type = .named definition.name type.nullable := by
  obtain ⟨hstandard, hreserved⟩ := hplain definition (Schema.mem_values_of_get? hget) hscalar
  rw [MemberType.ofRef_eq_named_iff, ← hkeyed.name_eq hget]
  exact ⟨hlist, memberName_eq_self hstandard hreserved, rfl⟩

/-! ### Places of single objects -/

/-- The type of a single object at some place of the variables is visited, and its projection
there has the normal form with which it is visited. -/
def Placed (schema : Schema) (visited : List QueuedType) (definition : TypeDef)
    (p : Projection) : Prop :=
  ∃ queued ∈ visited, queued.definition = definition ∧
    queued.projection = p.normalize schema definition

/-- Where the fields that take part have distinct names, look-up by name finds each of them: fields
of one name all take part, or none does. -/
theorem QueuedType.field?_eq_some {queued : QueuedType}
    (hdistinct : (queued.fields.map (·.name)).Nodup) {field : FieldDef}
    (h : field ∈ queued.fields) : queued.definition.field? field.name = some field := by
  obtain ⟨hdeclared, hincludes⟩ := mem_fields_iff.mp h
  obtain ⟨other, hother⟩ := Option.isSome_iff_exists.mp (TypeDef.hasField_of_mem hdeclared)
  obtain ⟨hmem, hname⟩ := TypeDef.mem_of_field?_eq_some hother
  have hkept : other ∈ queued.fields := mem_fields_iff.mpr ⟨hmem, hname ▸ hincludes⟩
  rw [hother, List.inj_on_of_nodup_map hdistinct hkept h hname]

section Placed

variable (hkeyed : schema.Keyed) (hresolved : Resolved schema bindings)
  (hdiscovered : Discovered schema .reuse bindings visited)
  (hdistinct : ∀ queued ∈ visited, (queued.fields.map (·.name)).Nodup)

include hkeyed hresolved hdiscovered hdistinct

/-- **A field of a placed object is placed.** The normal form of a projection has, under each
field, the normal form of the projection that flattening goes on with. -/
theorem Placed.field {definition : TypeDef} {p : Projection}
    (h : Placed schema visited definition p) {field : FieldDef}
    (hfield : field ∈ definition.fields) (hincludes : p.includes field.name = true)
    {child : TypeDef} (hget : schema.get? field.type.leafName = some child)
    (hscalar : child.isScalar = false) (hlist : field.type.isList = false) :
    Placed schema visited child (p.child field.name) := by
  obtain ⟨queued, hqueued, rfl, hprojection⟩ := h
  have hmem : field ∈ queued.fields := by
    rw [QueuedType.fields_eq hprojection, List.mem_filter]
    exact ⟨hfield, hincludes⟩
  have hchildType : Projection.childType? schema queued.definition field.name = some child := by
    rw [Projection.childType?, QueuedType.field?_eq_some (hdistinct queued hqueued) hmem,
      Option.bind_some, hget]
  rcases hdiscovered.field hkeyed hresolved hqueued hmem hget hscalar with
    ⟨other, hother, hdefinition, hchild⟩ | ⟨-, hlist', -⟩
  · refine ⟨other, hother, hdefinition, ?_⟩
    rw [hchild, hprojection]
    exact Projection.child_normalize p hchildType
  · rw [hlist] at hlist'
    cases hlist'

/-- **A rebuilt value fits a parameter of its type.** Induction on the fuel of the shape. A leaf
is read from the parameter of that leaf, and an object is made by the constructor of the class
that was found for its type, from the shapes of its fields. -/
theorem fits_rebuild (hplain : PlainNames schema) {pre : String} {owner : ClassDecl}
    (howner : owner.nested = visited.map QueuedType.decl)
    {leaves : List FlatLeaf} {helpers : List Parameter}
    (hhelpers : helpers = Parameter.markLast (leaves.map fun leaf =>
      .of (leafParameterName leaves leaf) leaf.type)) (fuel : Nat) :
    ∀ {expanding path : List String} {name : String} {type : TypeRef} {definition : TypeDef}
      {p : Projection} {shape : ValueShape},
      shapeOf schema fuel expanding path type definition p = .ok shape →
      schema.get? type.leafName = some definition →
      (definition.isScalar = false → type.isList = false →
        Placed schema visited definition p) →
      shape.leaves ⊆ leaves → ∀ isLast,
      Fits pre owner helpers ((rebuild leaves pre name shape).withLast isLast)
        { name := name, type := .ofRef type, isLast := isLast } := by
  induction fuel using Nat.strong_induction_on with
  | _ fuel ih =>
      intro expanding path name type definition p shape hshape hget hplaced hleaves isLast
      by_cases hleaf : definition.isScalar = true ∨ type.isList = true
      · rw [shapeOf_leaf hleaf] at hshape
        obtain rfl := Except.ok.inj hshape
        have hmem : FlatLeaf.mk path type ∈ leaves := by
          apply hleaves
          rw [ValueShape.leaves]
          exact List.mem_singleton_self _
        obtain ⟨helper, hhelper, hname, htype⟩ := exists_parameter_of_leaf hmem
        rw [← hhelpers] at hhelper
        rw [rebuild, Argument.withLast, ← hname]
        exact .parameter ⟨name, .ofRef type, isLast⟩ hhelper htype
      · rw [not_or, Bool.not_eq_true, Bool.not_eq_true] at hleaf
        obtain ⟨hscalar, hlist⟩ := hleaf
        obtain ⟨fuel', shapes, rfl, -, -, rfl, hfields⟩ :=
          exists_shapes_of_shapeOf hscalar hlist hshape
        have hplace := hplaced hscalar hlist
        obtain ⟨queued, hqueued, rfl, hprojection⟩ := hplace
        have hinner : owner.inner? queued.decl.name = some queued.decl := by
          rw [ClassDecl.inner?, howner]
          exact hdiscovered.find?_eq hqueued
        rw [rebuild, Argument.withLast]
        refine .call ⟨name, .ofRef type, isLast⟩ hinner
          (ofRef_eq_named hkeyed hplain hget hscalar hlist) (forall₂_fits_markLast ?_)
        -- The fields of the visited type are those that flattening expands.
        rw [QueuedType.fields_eq hprojection, rebuildFields_eq_map, List.forall₂_map_left_iff,
          List.forall₂_map_right_iff]
        refine (forall₂_and_mem hfields).flip.imp ?_
        rintro ⟨first, shape⟩ field ⟨⟨rfl, child, hget', hshape'⟩, hfield, hmem⟩ last
        obtain ⟨hdeclared, hincludes⟩ := List.mem_filter.mp hfield
        refine ih fuel' (Nat.lt_succ_self _) hshape' hget' ?_ ?_ last
        · intro hscalar' hlist'
          exact Placed.field hkeyed hresolved hdiscovered hdistinct (hplaced hscalar hlist)
            hdeclared hincludes hget' hscalar' hlist'
        · refine List.Subset.trans ?_ hleaves
          rw [ValueShape.leaves]
          exact ValueShape.leaves_subset hmem

/-- **Rebuilt variables fit the class that is made for them**, whatever the constructors of its
nested classes are called. -/
theorem fits_arguments (hplain : PlainNames schema) {operation : String} {flat : FlatVariables}
    (hflat : flattenVariables schema operation bindings = .ok flat) {owner : ClassDecl}
    (howner : owner.nested = visited.map QueuedType.decl) (pre : String) :
    List.Forall₂ (Fits pre owner flat.parameters) (flat.arguments pre)
      (Parameter.markLast (bindings.map Binding.parameter)) := by
  obtain ⟨hshapes, -, hparameters⟩ := flattenVariables_eq_ok_iff.mp hflat
  rw [FlatVariables.arguments, rebuildFields_eq_map]
  apply forall₂_fits_markLast
  rw [List.forall₂_map_left_iff, List.forall₂_map_right_iff]
  refine (forall₂_and_mem hshapes).flip.imp ?_
  rintro ⟨_, shape⟩ binding ⟨⟨rfl, hshape⟩, hbinding, hmem⟩ last
  refine fits_rebuild hkeyed hresolved hdiscovered hdistinct hplain howner hparameters _ hshape
    (hresolved binding hbinding) ?_ (ValueShape.leaves_subset hmem) last
  intro hscalar _
  exact (hdiscovered.rooted binding hbinding hscalar).exists_definition_eq hkeyed hresolved
    hdiscovered.reached (hresolved binding hbinding)

end Placed

end Build

open Build

/-- **The arguments of the helper fit the class of the variables.** They are well typed for the
constructor parameters of that class, one by one, with objects made by its nested classes; and
read from left to right they use each parameter of the helper once, in order. -/
theorem helperArguments_fit {schema : Schema} {package : String} {operation : Operation}
    {model : ClassModel} (hkeyed : schema.Keyed)
    (hdistinct : ∀ type ∈ schema.types.values, type.DistinctFields)
    (hplain : PlainNames schema) (hvars : operation.vars ≠ [])
    (h : ClassModel.ofOperation schema package operation = .ok model) :
    ∃ cls, model.variablesClass = some cls ∧
      List.Forall₂ (Fits (operation.name ++ "." ++ cls.name ++ ".") cls model.helperParameters)
        model.helperArguments cls.parameters ∧
      Argument.sourcesOfAll model.helperArguments = model.helperParameters.map (·.name) ∧
      (model.helperParameters.map (·.name)).Nodup := by
  obtain ⟨bindings, fields, hbindings, -, hvariables, -⟩ := exists_parts h
  have hresolved := resolved_of_variableBindings hbindings
  cases hvariables with
  | none =>
      exact absurd (List.forall₂_nil_right_iff.mp (mapM_eq_ok_iff.mp hbindings)) hvars
  | @some _ nested flat cls hne hnested hflat hclass hname hparameters hinner hhelper
      harguments =>
      obtain ⟨visited, hdiscovered, rfl⟩ := exists_discovered hnested
      obtain ⟨-, hnodup, hflatParameters⟩ := flattenVariables_eq_ok_iff.mp hflat
      have hnames : model.helperParameters.map (·.name) =
          flat.leaves.map (leafParameterName flat.leaves) := by
        rw [hhelper, hflatParameters, Parameter.map_name_markLast, List.map_map]
        rfl
      refine ⟨cls, hclass, ?_, ?_, hnames ▸ hnodup⟩
      · rw [harguments, hparameters, hname, hhelper]
        refine fits_arguments hkeyed hresolved hdiscovered (fun queued hqueued => ?_) hplain hflat
          hinner _
        obtain ⟨key, hget⟩ := (hdiscovered.reached queued hqueued).exists_get? hresolved
        exact (hdistinct _ (Schema.mem_values_of_get? hget)).sublist
          (List.filter_sublist.map _)
      · rw [harguments, FlatVariables.arguments, Argument.sourcesOfAll_markLast,
          sourcesOfAll_rebuildFields, hnames]
        rfl

/-- Movies, the studio of a movie and the city of a studio. -/
def filmSchema : Schema where
  types := .ofList (standardScalars.map .givenScalar ++ [
    { name := "Movie", kind := .input, fields := [
        { name := "title", type := .named "String" false },
        { name := "studio", type := .named "Studio" true },
        { name := "sequels", type := .list (.named "Movie" false) true }] },
    { name := "Studio", kind := .input, fields := [
        { name := "name", type := .named "ID" false },
        { name := "city", type := .named "City" false }] },
    { name := "City", kind := .input, fields := [
        { name := "name", type := .named "String" true },
        { name := "zip", type := .named "Int" true }] }])
  query := { name := "Query" }
  mutation := { name := "Mutation" }

/-- Saves a movie and the studio that owns it, whose fields are all picked. -/
def saveMovie : Operation where
  name := "Save"
  kind := .mutation
  vars := [
    { name := "movie", type := .named "Movie" false },
    { name := "owner", type := .named "Studio" true, pick := some ["city", "name"] },
    { name := "tags", type := .list (.named "String" false) false }]

/-- The studio of a movie and the owner are made by one class, from six parameters with long
names. -/
theorem helperArguments_fit_saveMovie :
    ∃ model, ClassModel.ofOperation filmSchema "crate" saveMovie = .ok model ∧
      model.helperParameters.map (·.name) = ["title", "movie_studio_name",
        "movie_studio_city_name", "movie_studio_city_zip", "sequels", "owner_name",
        "owner_city_name", "owner_city_zip", "tags"] ∧
      ∃ cls, model.variablesClass = some cls ∧
        List.Forall₂ (Fits "Save.SaveVariables." cls model.helperParameters)
          model.helperArguments cls.parameters ∧
        Argument.sourcesOfAll model.helperArguments = model.helperParameters.map (·.name) := by
  refine ⟨_, rfl, rfl, ?_⟩
  obtain ⟨cls, hclass, hfits, hsources, -⟩ :=
    @helperArguments_fit filmSchema "crate" saveMovie _ (by decide) (by decide) (by decide)
      (by decide) rfl
  obtain rfl := Option.some.inj hclass
  exact ⟨_, rfl, hfits, hsources⟩

end ClientSdk
