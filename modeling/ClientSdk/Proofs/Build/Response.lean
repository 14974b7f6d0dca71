import ClientSdk.Proofs.Build.Model

/-!
# Responses

The class of a response has what the operation selects, and nothing else. Its constructor has
one parameter for each response key. Every type of objects at the end of a selected path has one
nested class, whose parameters are the fields that are selected at that path. Two places with the
same type share that class, so what is selected below them must be the same; building fails with
a conflict only where it is not.

## Main definitions

* `Reaches`: a selected path leads to a type of objects.
* `AnswersExactly`: the class of a response has exactly what the operation selects.

## Main results

* `response_exact`: the response class answers exactly, and conflicts are real.
-/

namespace ClientSdk

/-- The response key `key` and the fields on `path` below it are selected and lead to the type
`type` of objects. -/
inductive Reaches (schema : Schema) (operation : Operation) :
    String → List String → TypeDef → Prop
  | root {name : String} {alias? : Option String} {selections : List Selection}
      {field : FieldDef} {type : TypeDef} :
      .field name alias? selections ∈ operation.selections →
      (schema.root operation.kind).field? name = some field →
      schema.get? field.type.leafName = some type → type.isScalar = false →
      Reaches schema operation (alias?.getD name) [] type
  | field {key : String} {path : List String} {type child : TypeDef} {field : FieldDef} :
      Reaches schema operation key path type → field ∈ type.fields →
      operation.selects key (path ++ [field.name]) = true →
      schema.get? field.type.leafName = some child → child.isScalar = false →
      Reaches schema operation key (path ++ [field.name]) child

/-- The class of the response has exactly what the operation selects. -/
structure AnswersExactly (schema : Schema) (operation : Operation) (cls : ClassDecl) : Prop where
  /-- There is one parameter for each response key, in the order in which the keys are first
  seen. -/
  names_eq : cls.parameters.map (·.name) = (responseKeys operation.selections).eraseDups
  /-- Each parameter has the type of the root field that is selected under its name. -/
  exists_parameter : ∀ name alias? selections field,
    .field name alias? selections ∈ operation.selections →
    (schema.root operation.kind).field? name = some field →
    ∃ param ∈ cls.parameters, param.name = alias?.getD name ∧ param.type = .ofRef field.type
  /-- For each type of objects that a selected path leads to there is exactly one class. Its
  parameters are the fields that are selected at that path, in the order in which the type
  declares them. -/
  exists_nested : ∀ key path type, Reaches schema operation key path type →
    ∃ inner, cls.nested.filter (fun other => other.name == type.name) = [inner] ∧
      IsClassOf type
        (type.fields.filter fun field => operation.selects key (path ++ [field.name])) inner
  /-- Each nested class is that of a type that a selected path leads to. -/
  exists_reaches : ∀ inner ∈ cls.nested, ∃ key path type,
    Reaches schema operation key path type ∧ inner.name = type.name

/-- The name of the field that an entry selects. -/
def Selection.fieldName? : Selection → Option String
  | .field name _ _ => some name
  | .spread _ => none
  | .inlineFragment _ => none

/-- Root entries with the same response key name the same root field. -/
def ConsistentKeys (operation : Operation) : Prop :=
  ∀ entry ∈ operation.selections, ∀ other ∈ operation.selections,
    entry.responseKey? = other.responseKey? → entry.fieldName? = other.fieldName?

instance (operation : Operation) : Decidable (ConsistentKeys operation) :=
  inferInstanceAs (Decidable (∀ entry ∈ _, ∀ other ∈ _, _ → _))

/-- Two selected paths lead to one type called `type`, and below them different paths of declared
fields are selected. -/
def SelectedDifferently (schema : Schema) (operation : Operation) (name : String) : Prop :=
  ∃ key path key' path' type, type.name = name ∧
    Reaches schema operation key path type ∧ Reaches schema operation key' path' type ∧
    ∃ below, (schema.typeAt? type below).isSome = true ∧
      operation.selects key (path ++ below) ≠ operation.selects key' (path' ++ below)

namespace Build

variable {schema : Schema} {operation : Operation} {bindings : List Binding}
  {visited : List QueuedType}

/-! ### Projections along selected paths -/

/-- The projection of what is selected at a place: the response key with the path below it leads
to the type, and the projection includes what is selected from there on. -/
structure Located (schema : Schema) (operation : Operation) (key : String) (path : List String)
    (type : TypeDef) (p : Projection) : Prop where
  /-- The path leads to the type. -/
  reaches : Reaches schema operation key path type
  /-- The projection is sorted. -/
  ordered : p.Ordered
  /-- The projection names declared fields. -/
  namesFields : p.NamesFields schema type
  /-- The projection includes the paths that are selected below. -/
  includesPath_eq : ∀ below, p.includesPath below = operation.selects key (path ++ below)

/-- A field takes part exactly when the path through it is selected. -/
theorem Located.includes_eq {key : String} {path : List String} {type : TypeDef}
    {p : Projection} (h : Located schema operation key path type p) (name : String) :
    p.includes name = operation.selects key (path ++ [name]) := by
  rw [← h.includesPath_eq, Projection.includesPath_cons, Projection.includesPath_nil,
    Bool.and_true]

/-- A field that takes part leads on. -/
theorem Located.field {key : String} {path : List String} {type child : TypeDef}
    {p : Projection} (hdistinct : type.DistinctFields)
    (h : Located schema operation key path type p) {field : FieldDef}
    (hfield : field ∈ type.fields) (hincludes : p.includes field.name = true)
    (hget : schema.get? field.type.leafName = some child) (hscalar : child.isScalar = false) :
    Located schema operation key (path ++ [field.name]) child (p.child field.name) := by
  have hchild : Projection.childType? schema type field.name = some child :=
    Projection.childType?_eq_some hdistinct hfield hget
  refine ⟨.field h.reaches hfield ?_ hget hscalar, h.ordered.child _,
    h.namesFields.child hchild, fun below => ?_⟩
  · rw [← h.includes_eq, hincludes]
  · rw [List.append_assoc, List.singleton_append, ← h.includesPath_eq,
      Projection.includesPath_cons, hincludes, Bool.true_and]

/-- The entries with the key of a binding select below the type of the binding. -/
theorem definition_eq_of_key (hkeys : ConsistentKeys operation) {binding : Binding}
    (hcollects : Collects schema (schema.root operation.kind) operation.selections binding)
    {name : String} {alias? : Option String} {selections : List Selection} {field : FieldDef}
    (hentry : .field name alias? selections ∈ operation.selections)
    (hkey : alias?.getD name = binding.name)
    (hfield : (schema.root operation.kind).field? name = some field) :
    binding.type = field.type ∧ schema.get? field.type.leafName = some binding.definition := by
  obtain ⟨name', alias?', selections', field', hentry', hkey', hfield', htype, hget⟩ :=
    hcollects.exists_field
  have hsame := hkeys _ hentry _ hentry' (congrArg some (hkey.trans hkey'.symm))
  obtain rfl := Option.some.inj hsame
  obtain rfl := Option.some.inj (hfield.symm.trans hfield')
  exact ⟨htype, hget⟩

/-- An entry of a selection set that fits a type names a field of that type, and selects what
fits the type of that field. -/
theorem exists_childType?_of_mem {type : TypeDef} {selections : List Selection}
    (hfits : Selection.namesFields schema selections type = true) {name : String}
    {alias? : Option String} {below : List Selection}
    (hentry : .field name alias? below ∈ selections) :
    ∃ child, Projection.childType? schema type name = some child ∧
      Selection.namesFields schema below child = true := by
  induction selections with
  | nil => exact absurd hentry List.not_mem_nil
  | cons first rest ih =>
      cases first with
      | spread fragment => cases hfits
      | inlineFragment condition => cases hfits
      | field other otherAlias? otherBelow =>
          obtain ⟨hfirst, hrest⟩ := Projection.namesFields_field_cons hfits
          rcases List.mem_cons.mp hentry with heq | hmem
          · obtain ⟨rfl, rfl, rfl⟩ := Selection.field.inj heq
            exact hfirst
          · exact ih hrest hmem

/-- The binding of a response key is located at that key. -/
theorem located_of_binding (hkeys : ConsistentKeys operation)
    (hfits : Selection.namesFields schema operation.selections (schema.root operation.kind) =
      true)
    {binding : Binding}
    (hcollects : Collects schema (schema.root operation.kind) operation.selections binding)
    (hscalar : binding.isScalar = false) :
    Located schema operation binding.name [] binding.definition binding.projection := by
  obtain ⟨name, alias?, selections, field, hentry, hkey, hfield, -, hget⟩ :=
    hcollects.exists_field
  refine ⟨hkey ▸ .root hentry hfield hget hscalar, hcollects.ordered,
    hcollects.namesFields ?_, hcollects.includesPath_eq⟩
  intro other otherAlias? below hother hsame
  obtain ⟨child, hchild, hbelow⟩ := exists_childType?_of_mem hfits hother
  rw [Projection.childType?, Option.bind_eq_some_iff] at hchild
  obtain ⟨otherField, hotherField, hgetChild⟩ := hchild
  have hsameType := (definition_eq_of_key hkeys hcollects hother hsame hotherField).2
  obtain rfl := Option.some.inj (hgetChild.symm.trans hsameType)
  exact hbelow

/-- Selections that fit a type and have no response keys are none. -/
theorem eq_nil_of_responseKeys_eq_nil {type : TypeDef} {selections : List Selection}
    (hfits : Selection.namesFields schema selections type = true)
    (hkeys : responseKeys selections = []) : selections = [] := by
  cases selections with
  | nil => rfl
  | cons first rest =>
      cases first with
      | spread fragment => cases hfits
      | inlineFragment condition => cases hfits
      | field name alias? below => cases hkeys

/-- Every reached type is located at a selected path, with the projection of that place in normal
form. -/
theorem exists_located_of_reached (hdistinct : schema.DistinctFields)
    (hresolved : Resolved schema bindings)
    (hroots : ∀ binding ∈ bindings, binding.isScalar = false →
      Located schema operation binding.name [] binding.definition binding.projection)
    {queued : QueuedType} (h : Reached schema .agree bindings visited queued) :
    ∃ key path p, Located schema operation key path queued.definition p ∧
      queued.projection = p.normalize schema queued.definition := by
  induction h with
  | @root binding hbinding hscalar =>
      exact ⟨binding.name, [], binding.projection, hroots binding hbinding hscalar, rfl⟩
  | @field queued field child hreached _ hfield hget hscalar _ ih =>
      obtain ⟨key, path, p, hlocated, hprojection⟩ := ih
      obtain ⟨key', hget'⟩ := hreached.exists_get? hresolved
      have hdistinct' := hdistinct.of_get? hget'
      rw [QueuedType.fields_eq hprojection, List.mem_filter] at hfield
      obtain ⟨hdeclared, hincludes⟩ := hfield
      refine ⟨key, path ++ [field.name], p.child field.name,
        hlocated.field hdistinct' hdeclared hincludes hget hscalar, ?_⟩
      rw [QueuedType.projection_along, hprojection]
      exact Projection.child_normalize p
        (Projection.childType?_eq_some hdistinct' hdeclared hget)

/-- **The type at the end of a selected path is visited**, with the projection of that place in
normal form. Induction along the path. -/
theorem exists_visited_of_reaches (hkeyed : schema.Keyed) (hdistinct : schema.DistinctFields)
    (hkeys : ConsistentKeys operation) (hresolved : Resolved schema bindings)
    (hnames : bindings.map (·.name) = (responseKeys operation.selections).eraseDups)
    (hcollects : ∀ binding ∈ bindings,
      Collects schema (schema.root operation.kind) operation.selections binding)
    (hroots : ∀ binding ∈ bindings, binding.isScalar = false →
      Located schema operation binding.name [] binding.definition binding.projection)
    (hdiscovered : Discovered schema .agree bindings visited) {key : String}
    {path : List String} {type : TypeDef} (h : Reaches schema operation key path type) :
    ∃ queued ∈ visited, queued.definition = type ∧
      ∃ p, Located schema operation key path type p ∧
        queued.projection = p.normalize schema type := by
  induction h with
  | @root name alias? selections field type hentry hfield hget hscalar =>
      have hmem : alias?.getD name ∈ bindings.map (·.name) := by
        rw [hnames, List.mem_eraseDups]
        exact List.mem_filterMap.mpr ⟨_, hentry, rfl⟩
      obtain ⟨binding, hbinding, hkey⟩ := List.mem_map.mp hmem
      obtain ⟨-, hget'⟩ :=
        definition_eq_of_key hkeys (hcollects binding hbinding) hentry hkey.symm hfield
      obtain rfl := Option.some.inj (hget.symm.trans hget')
      obtain ⟨queued, hqueued, hdefinition, hprojection⟩ :=
        (hdiscovered.rooted binding hbinding hscalar).exists_definition_eq hkeyed hresolved
          hdiscovered.reached (hresolved binding hbinding)
      exact ⟨queued, hqueued, hdefinition, binding.projection,
        hkey ▸ hroots binding hbinding hscalar, hprojection⟩
  | @field key path type child field _ hfield hselected hget hscalar ih =>
      obtain ⟨queued, hqueued, rfl, p, hlocated, hprojection⟩ := ih
      obtain ⟨key', hget'⟩ := (hdiscovered.reached queued hqueued).exists_get? hresolved
      have hdistinct' := hdistinct.of_get? hget'
      have hincludes : p.includes field.name = true := by
        rw [hlocated.includes_eq, hselected]
      have hmem : field ∈ queued.fields := by
        rw [QueuedType.fields_eq hprojection, List.mem_filter]
        exact ⟨hfield, hincludes⟩
      rcases hdiscovered.field hkeyed hresolved hqueued hmem hget hscalar with
        ⟨other, hother, hdefinition, hchild⟩ | ⟨hpolicy, -⟩
      · refine ⟨other, hother, hdefinition, p.child field.name,
          hlocated.field hdistinct' hfield hincludes hget hscalar, ?_⟩
        rw [hchild, hprojection]
        exact Projection.child_normalize p
          (Projection.childType?_eq_some hdistinct' hfield hget)
      · cases hpolicy

/-- The fields of a visited type are those that are selected where it is located. -/
theorem Located.fields_eq {key : String} {path : List String} {queued : QueuedType}
    {p : Projection} (h : Located schema operation key path queued.definition p)
    (hprojection : queued.projection = p.normalize schema queued.definition) :
    queued.fields = queued.definition.fields.filter fun field =>
      operation.selects key (path ++ [field.name]) := by
  rw [QueuedType.fields_eq hprojection]
  exact List.filter_congr fun field _ => h.includes_eq _

/-- Places of one type whose projections have different normal forms select different paths of
declared fields. -/
theorem Located.selectedDifferently (hclosed : schema.ReferenceClosed)
    (hdistinct : schema.DistinctFields) {key key' : String} {path path' : List String}
    {type : TypeDef} {p p' : Projection} {name : String} (hget : schema.get? name = some type)
    (h : Located schema operation key path type p)
    (h' : Located schema operation key' path' type p')
    (hne : p.normalize schema type ≠ p'.normalize schema type) :
    SelectedDifferently schema operation type.name := by
  refine ⟨key, path, key', path', type, rfl, h.reaches, h'.reaches, ?_⟩
  by_contra hsame
  refine hne (Projection.normalize_eq_normalize hclosed hdistinct h.ordered h'.ordered
    (Schema.mem_declarations_of_get? hget) h.namesFields h'.namesFields fun below hbelow => ?_)
  rw [h.includesPath_eq, h'.includesPath_eq]
  by_contra hdiff
  exact hsame ⟨below, hbelow, hdiff⟩

/-- A search for the classes of a response meets conflicts only where paths of one type are
selected differently. -/
theorem selectedDifferently_of_conflict (hclosed : schema.Closed)
    (hdistinct : schema.DistinctFields) (hresolved : Resolved schema bindings)
    (hroots : ∀ binding ∈ bindings, binding.isScalar = false →
      Located schema operation binding.name [] binding.definition binding.projection)
    {name name' type : String}
    (h : innerClasses schema name bindings .agree =
      .error (.conflictingProjection name' type)) :
    SelectedDifferently schema operation type := by
  obtain ⟨visited, -, hreached, hblocked⟩ := exists_blocked h
  generalize he : GenerationError.conflictingProjection name' type = e at hblocked
  cases hblocked with
  | cycle => cases he
  | missing => cases he
  | unknown => cases he
  | @conflict queued other hqueued hother hname hne =>
      obtain ⟨-, rfl⟩ := GenerationError.conflictingProjection.inj he
      obtain ⟨key, hget⟩ := hqueued.exists_get? hresolved
      obtain ⟨key', hget'⟩ := (hreached other hother).exists_get? hresolved
      have hsame : other.definition = queued.definition :=
        hclosed.1.eq_of_name_eq hget' hget hname
      obtain ⟨_, _, p, hlocated, hprojection⟩ :=
        exists_located_of_reached hdistinct hresolved hroots hqueued
      obtain ⟨_, _, p', hlocated', hprojection'⟩ :=
        exists_located_of_reached hdistinct hresolved hroots (hreached other hother)
      rw [hsame] at hlocated' hprojection'
      refine hlocated.selectedDifferently hclosed.2 hdistinct hget hlocated' ?_
      rw [← hprojection, ← hprojection']
      exact hne.symm

end Build

open Build

/-- **The response class answers exactly.** Without selections there is no such class. With
selections it has a parameter for each response key and one nested class, with the selected
fields, for each type of objects that a selected path leads to. A conflict is reported only for
the variables, or where two selected paths lead to one type with different selections below. -/
theorem response_exact {schema : Schema} {package : String} {operation : Operation}
    (hclosed : schema.Closed) (hdistinct : schema.DistinctFields)
    (hfits : Selection.namesFields schema operation.selections (schema.root operation.kind) =
      true) (hkeys : ConsistentKeys operation) :
    (∀ model, ClassModel.ofOperation schema package operation = .ok model →
      operation.selections = [] ∧ model.responseClass = none ∨
        ∃ cls, model.responseClass = some cls ∧ AnswersExactly schema operation cls) ∧
    ∀ name type, ClassModel.ofOperation schema package operation =
        .error (.conflictingProjection name type) →
      ClassModel.ofOperation schema package { operation with selections := [] } =
          .error (.conflictingProjection name type) ∨
        SelectedDifferently schema operation type := by
  have hroots : ∀ fields, responseBindings schema operation = .ok fields →
      ∀ binding ∈ fields, binding.isScalar = false →
        Located schema operation binding.name [] binding.definition binding.projection :=
    fun fields hfields binding hbinding hscalar => located_of_binding hkeys hfits
      ((bindings_of_responseBindings hfields).2 binding hbinding) hscalar
  constructor
  · intro model h
    obtain ⟨vars, fields, -, hfields, -, hresponse⟩ := exists_parts h
    obtain ⟨hnames, hcollects⟩ := bindings_of_responseBindings hfields
    have hresolved := resolved_of_responseBindings hfields
    cases hresponse with
    | none hclass =>
        refine Or.inl ⟨eq_nil_of_responseKeys_eq_nil hfits ?_, hclass⟩
        rw [List.eq_nil_iff_forall_not_mem]
        intro key hkey
        rw [← List.mem_eraseDups, ← hnames] at hkey
        exact List.not_mem_nil hkey
    | @some _ nested cls hne hnested hclass hname hparameters hinner =>
        obtain ⟨visited, hdiscovered, rfl⟩ := exists_discovered hnested
        refine Or.inr ⟨cls, hclass, ?_, ?_, ?_, ?_⟩
        · rw [hparameters, Parameter.map_name_markLast, List.map_map, ← hnames]
          rfl
        · intro name alias? selections field hentry hfield
          have hmem : alias?.getD name ∈ fields.map (·.name) := by
            rw [hnames, List.mem_eraseDups]
            exact List.mem_filterMap.mpr ⟨_, hentry, rfl⟩
          obtain ⟨binding, hbinding, hkey⟩ := List.mem_map.mp hmem
          obtain ⟨htype, -⟩ :=
            definition_eq_of_key hkeys (hcollects binding hbinding) hentry hkey.symm hfield
          rw [hparameters, ← hkey, ← htype]
          exact Parameter.exists_mem_markLast (List.mem_map_of_mem hbinding)
        · intro key path type hreaches
          obtain ⟨queued, hqueued, rfl, p, hlocated, hprojection⟩ :=
            exists_visited_of_reaches hclosed.1 hdistinct hkeys hresolved hnames hcollects
              (hroots fields hfields) hdiscovered hreaches
          refine ⟨queued.decl, hinner ▸ hdiscovered.filter_eq hqueued, ?_⟩
          rw [← hlocated.fields_eq hprojection]
          exact queued.isClassOf_decl
        · intro inner hmem
          rw [hinner] at hmem
          obtain ⟨queued, hqueued, rfl⟩ := List.mem_map.mp hmem
          obtain ⟨key, path, p, hlocated, -⟩ := exists_located_of_reached hdistinct hresolved
            (hroots fields hfields) (hdiscovered.reached queued hqueued)
          exact ⟨key, path, queued.definition, hlocated.reaches, rfl⟩
  · intro name type h
    rcases cause_of_ofOperation_eq_error h with hvars | hread | ⟨fields, hfields, hinner⟩
    · exact Or.inl hvars
    · have hkind := kind_of_responseBindings_eq_error hread
      simp [GenerationError.kind] at hkind
    · exact Or.inr (selectedDifferently_of_conflict hclosed hdistinct
        (resolved_of_responseBindings hfields) (hroots fields hfields) hinner)

/-- Films with the persons who work on them. -/
def castSchema : Schema where
  types := .ofList (standardScalars.map .givenScalar ++ [
    { name := "Film", fields := [
        { name := "title", type := .named "String" false },
        { name := "director", type := .named "Person" true },
        { name := "cast", type := .list (.named "Person" false) false }] },
    { name := "Person", fields := [
        { name := "name", type := .named "String" false },
        { name := "born", type := .named "Int" true },
        { name := "films", type := .list (.named "Film" false) true }] }])
  query := { name := "Query", fields := [
    { name := "films", type := .list (.named "Film" false) false },
    { name := "film", type := .named "Film" true }] }
  mutation := { name := "Mutation" }

/-- Selects the same fields of films, in different orders and in several entries, under two
keys. -/
def listFilms : Operation where
  name := "List"
  kind := .query
  selections := [
    .field "films" none [.field "title" none [], .field "cast" none [.field "name" none []]],
    .field "film" (some "best") [.field "director" none [.field "name" none []],
      .field "title" none [], .field "cast" none [.field "name" none []]],
    .field "films" none [.field "director" none [.field "name" none []]]]

/-- Selects less of the director of a film than of its cast. -/
def compareCast : Operation where
  name := "Compare"
  kind := .query
  selections := [
    .field "film" none [.field "director" none [.field "name" none []],
      .field "cast" none [.field "name" none [], .field "born" none []]]]

/-- One class stands for all persons where they are selected alike, and building fails where
they are not. -/
theorem response_exact_films :
    (∃ model cls, ClassModel.ofOperation castSchema "crate" listFilms = .ok model ∧
      model.responseClass = some cls ∧
      cls.members = [("films", .list (.named "Film" false) false), ("best", .named "Film" true)] ∧
      cls.nested.map (fun inner => (inner.name, inner.members)) = [
        ("Film", [("title", .named "String" false), ("director", .named "Person" true),
          ("cast", .list (.named "Person" false) false)]),
        ("Person", [("name", .named "String" false)])] ∧
      AnswersExactly castSchema listFilms cls) ∧
    ClassModel.ofOperation castSchema "crate" compareCast =
      .error (.conflictingProjection "Compare" "Person") ∧
    SelectedDifferently castSchema compareCast "Person" := by
  have hclosed : castSchema.Closed := by decide
  have hdistinct : castSchema.DistinctFields := by decide
  have hconflict : ClassModel.ofOperation castSchema "crate" compareCast =
      .error (.conflictingProjection "Compare" "Person") := rfl
  refine ⟨?_, hconflict, ?_⟩
  · obtain ⟨model, cls, hmodel, hclass, hmembers, hnested⟩ : ∃ model cls,
        ClassModel.ofOperation castSchema "crate" listFilms = .ok model ∧
        model.responseClass = some cls ∧
        cls.members =
          [("films", .list (.named "Film" false) false), ("best", .named "Film" true)] ∧
        cls.nested.map (fun inner => (inner.name, inner.members)) = [
          ("Film", [("title", .named "String" false), ("director", .named "Person" true),
            ("cast", .list (.named "Person" false) false)]),
          ("Person", [("name", .named "String" false)])] := ⟨_, _, rfl, rfl, rfl, rfl⟩
    have hexact := (@response_exact castSchema "crate" listFilms hclosed hdistinct (by decide)
      (by decide)).1 model hmodel
    obtain ⟨_, hclass', hanswers⟩ := hexact.resolve_left fun h => by cases h.1
    obtain rfl := Option.some.inj (hclass.symm.trans hclass')
    exact ⟨model, cls, hmodel, hclass, hmembers, hnested, hanswers⟩
  · refine ((@response_exact castSchema "crate" compareCast hclosed hdistinct (by decide)
      (by decide)).2 "Compare" "Person" hconflict).resolve_left ?_
    intro hvars
    cases hvars

end ClientSdk
