import ClientSdk.Build
import ClientSdk.Proofs.Build.Bindings
import ClientSdk.Proofs.Build.Discovery

/-!
# Parts of a Class Model

A class model has a class for the variables and a class for the response. This module takes
the construction of a model apart into what each of the two is made from, and reads the nested
classes of either off the types that were discovered.

## Main definitions

* `ClassDecl.members`, `membersOf`: the parameters of a class, and what fields give, by name and
  type.
* `IsClassOf`: a class is made from a type and some of its fields.
* `Resolved`: the bindings have the types that their references name.
* `HasVariables`, `HasResponse`: what the parts of a model are made from.

## Main results

* `exists_parts`: every class model consists of these parts.
* `cause_of_ofOperation_eq_error`: the parts for which building a model can fail.
* `Discovered.field`: the fields of discovered types lead to discovered types.
* `Discovered.find?_eq`, `Discovered.filter_eq`: one class stands for each discovered type.
* `QueuedType.isClassOf_decl`: it is made from the type and the fields that take part.
-/

namespace ClientSdk

/-- The parameters of the primary constructor, each with its name and its type. -/
def ClassDecl.members (cls : ClassDecl) : List (String × MemberType) :=
  cls.parameters.map fun param => (param.name, param.type)

/-- The members that fields give to a class: the name of each with its type rendered. -/
def membersOf (fields : List FieldDef) : List (String × MemberType) :=
  fields.map fun field => (field.name, .ofRef field.type)

/-- The class is that of `type` with `fields`, and declares nothing inside. -/
structure IsClassOf (type : TypeDef) (fields : List FieldDef) (cls : ClassDecl) : Prop where
  /-- It is called like the type. -/
  name_eq : cls.name = type.name
  /-- Its parameters are the fields, in order, each with its name and its type rendered. -/
  members_eq : cls.members = membersOf fields
  /-- The parameter at the end is marked as the last one, and no other. -/
  isLast_eq : ∀ i param, cls.parameters[i]? = some param →
    param.isLast = decide (i + 1 = fields.length)
  /-- No class is declared inside it. -/
  nested_eq : cls.nested = []
  /-- It has no other constructor. -/
  secondary_eq : cls.secondary = []

namespace Build

variable {schema : Schema} {policy : ListPolicy} {bindings : List Binding}
  {visited : List QueuedType}

/-! ### Types of bindings -/

/-- Each binding has the definition that its type refers to. -/
def Resolved (schema : Schema) (bindings : List Binding) : Prop :=
  ∀ binding ∈ bindings, schema.get? binding.type.leafName = some binding.definition

/-- The bindings of variables have the definitions that their types refer to. -/
theorem resolved_of_variableBindings {operation : Operation}
    (h : variableBindings schema operation = .ok bindings) : Resolved schema bindings := by
  intro binding hbinding
  obtain ⟨var, -, hvar⟩ := exists_variable_of_mem h hbinding
  obtain ⟨-, htype, hget, -⟩ := variableBinding_eq_ok_iff.mp hvar
  rw [htype, hget]

/-- The bindings of a selection set have the definitions that their types refer to. -/
theorem resolved_of_responseBindings {operation : Operation}
    (h : responseBindings schema operation = .ok bindings) : Resolved schema bindings := by
  intro binding hbinding
  obtain ⟨_, _, _, field, -, -, -, htype, hget⟩ :=
    ((bindings_of_responseBindings h).2 binding hbinding).exists_field
  rw [htype, hget]

/-- A type that is reached from resolved bindings is a type of the schema. -/
theorem Reached.exists_get? (hresolved : Resolved schema bindings) {queued : QueuedType}
    (h : Reached schema policy bindings visited queued) :
    ∃ key, schema.get? key = some queued.definition := by
  cases h with
  | root hbinding _ => exact ⟨_, hresolved _ hbinding⟩
  | field _ _ _ hget _ _ => exact ⟨_, hget⟩

/-- In a keyed schema, a type that is recorded is visited with its own definition. -/
theorem Recorded.exists_definition_eq (hkeyed : schema.Keyed)
    (hresolved : Resolved schema bindings)
    (hreached : ∀ queued ∈ visited, Reached schema policy bindings visited queued)
    {queued : QueuedType} {key : String} (hget : schema.get? key = some queued.definition)
    (h : Recorded visited queued) :
    ∃ other ∈ visited, other.definition = queued.definition ∧
      other.projection = queued.projection := by
  obtain ⟨other, hother, hname, hprojection⟩ := h
  obtain ⟨key', hget'⟩ := (hreached other hother).exists_get? hresolved
  exact ⟨other, hother, hkeyed.eq_of_name_eq hget' hget hname, hprojection⟩

/-- **A field that takes part leads to a visited type**, with the projection below the field,
except where a list reuses a type. -/
theorem Discovered.field (hkeyed : schema.Keyed) (hresolved : Resolved schema bindings)
    (h : Discovered schema policy bindings visited) {queued : QueuedType}
    (hqueued : queued ∈ visited) {field : FieldDef} (hfield : field ∈ queued.fields)
    {child : TypeDef} (hget : schema.get? field.type.leafName = some child)
    (hscalar : child.isScalar = false) :
    (∃ other ∈ visited, other.definition = child ∧
      other.projection = queued.projection.child field.name) ∨
    policy = .reuse ∧ field.type.isList = true ∧
      ∃ other ∈ visited, other.name = child.name := by
  obtain ⟨child', hget', hled⟩ := (h.followed queued hqueued).2 field hfield
  obtain rfl := Option.some.inj (hget.symm.trans hget')
  rcases (hled hscalar).1 with hrecorded | hreused
  · exact Or.inl (hrecorded.exists_definition_eq hkeyed hresolved h.reached hget)
  · exact Or.inr hreused

/-- Where the projection of a visited type is a normal form, the fields that take part are those
that the projection includes. -/
theorem QueuedType.fields_eq {queued : QueuedType} {p : Projection}
    (h : queued.projection = p.normalize schema queued.definition) :
    queued.fields = queued.definition.fields.filter fun field => p.includes field.name := by
  rw [fields, h]
  exact List.filter_congr fun field hfield =>
    Projection.includes_normalize p (TypeDef.hasField_of_mem hfield)

/-! ### Nested classes -/

/-- The classes of the discovered types have distinct names. -/
theorem Discovered.nodup_names (h : Discovered schema policy bindings visited) :
    ((visited.map QueuedType.decl).map (·.name)).Nodup := by
  rw [List.map_map]
  exact h.nodup

/-- There is exactly one class with the name of a discovered type. -/
theorem Discovered.filter_eq (h : Discovered schema policy bindings visited)
    {queued : QueuedType} (hqueued : queued ∈ visited) :
    (visited.map QueuedType.decl).filter (fun cls => cls.name == queued.name) =
      [queued.decl] :=
  filter_eq_singleton h.nodup_names (List.mem_map_of_mem hqueued)

/-- The class that is found under the name of a discovered type is its class. -/
theorem Discovered.find?_eq (h : Discovered schema policy bindings visited)
    {queued : QueuedType} (hqueued : queued ∈ visited) :
    (visited.map QueuedType.decl).find? (fun cls => cls.name == queued.name) =
      some queued.decl :=
  find?_eq_some_of_nodup h.nodup_names (List.mem_map_of_mem hqueued)

/-- The members of the class of a visited type are the fields that take part. -/
theorem QueuedType.members_decl (queued : QueuedType) :
    queued.decl.members = membersOf queued.fields := by
  rw [ClassDecl.members, decl, classOf, Parameter.map_members_markLast, List.map_map]
  rfl

/-- **The class of a visited type** is made from the type and the fields that take part. -/
theorem QueuedType.isClassOf_decl (queued : QueuedType) :
    IsClassOf queued.definition queued.fields queued.decl := by
  refine ⟨rfl, queued.members_decl, fun i param hparam => ?_, rfl, rfl⟩
  rw [decl, classOf, Parameter.getElem?_markLast, Option.map_eq_some_iff] at hparam
  obtain ⟨old, -, rfl⟩ := hparam
  rw [List.length_map]

/-! ### Parts -/

/-- What the class of the variables and the helper of a model are made from. -/
inductive HasVariables (schema : Schema) (operation : String) (model : ClassModel) :
    List Binding → Prop
  | none : model.variablesClass = none → model.helperParameters = [] →
      model.helperArguments = [] → HasVariables schema operation model []
  | some {bindings : List Binding} {nested : List ClassDecl} {flat : FlatVariables}
      {cls : ClassDecl} : bindings ≠ [] →
      innerClasses schema operation bindings .reuse = .ok nested →
      flattenVariables schema operation bindings = .ok flat →
      model.variablesClass = some cls → cls.name = nameOfVariables operation →
      cls.parameters = Parameter.markLast (bindings.map Binding.parameter) →
      cls.nested = nested → model.helperParameters = flat.parameters →
      model.helperArguments =
        flat.arguments (operation ++ "." ++ nameOfVariables operation ++ ".") →
      HasVariables schema operation model bindings

/-- What the class of the response of a model is made from. -/
inductive HasResponse (schema : Schema) (operation : String) (model : ClassModel) :
    List Binding → Prop
  | none : model.responseClass = none → HasResponse schema operation model []
  | some {bindings : List Binding} {nested : List ClassDecl} {cls : ClassDecl} :
      bindings ≠ [] → innerClasses schema operation bindings .agree = .ok nested →
      model.responseClass = some cls → cls.name = nameOfResponse operation →
      cls.parameters = Parameter.markLast (bindings.map Binding.parameter) →
      cls.nested = nested → HasResponse schema operation model bindings

/-- A top-level class has a parameter for each binding and the classes that they call for. -/
theorem topClass_eq_ok_iff {operation name : String} {cls : ClassDecl} :
    topClass schema operation name bindings policy = .ok cls ↔
      ∃ nested, innerClasses schema operation bindings policy = .ok nested ∧
        cls = { name, parameters := Parameter.markLast (bindings.map Binding.parameter),
                nested } := by
  simp only [topClass, bind_eq_ok_iff, pure_eq_ok_iff]
  exact exists_congr fun nested => and_congr_right fun _ => eq_comm

/-- A model to which variables are added has the parts that belong to them. -/
theorem hasVariables_of_addVariables {model model' : ClassModel}
    (hnone : model.variablesClass = none ∧ model.helperParameters = [] ∧
      model.helperArguments = [])
    (h : addVariables schema model bindings = .ok model') :
    HasVariables schema model.operationName model' bindings ∧
      model'.operationName = model.operationName := by
  rw [addVariables] at h
  split at h
  · rename_i hempty
    obtain rfl := List.isEmpty_iff.mp hempty
    obtain rfl := Except.ok.inj h
    exact ⟨.none hnone.1 hnone.2.1 hnone.2.2, rfl⟩
  · rename_i hempty
    simp only [bind_eq_ok_iff, pure_eq_ok_iff, topClass_eq_ok_iff] at h
    obtain ⟨cls, ⟨nested, hnested, rfl⟩, flat, hflat, rfl⟩ := h
    have hne : bindings ≠ [] := fun heq => hempty (List.isEmpty_iff.mpr heq)
    exact ⟨.some hne hnested hflat rfl rfl rfl rfl rfl rfl, rfl⟩

/-- A model to which a response is added has the class that belongs to it, and keeps its
variables. -/
theorem hasResponse_of_addResponse {model model' : ClassModel}
    (hnone : model.responseClass = none)
    (h : addResponse schema model bindings = .ok model') :
    HasResponse schema model.operationName model' bindings ∧
      model' = { model with responseClass := model'.responseClass } := by
  rw [addResponse] at h
  split at h
  · rename_i hempty
    obtain rfl := List.isEmpty_iff.mp hempty
    obtain rfl := Except.ok.inj h
    exact ⟨.none hnone, rfl⟩
  · rename_i hempty
    simp only [bind_eq_ok_iff, pure_eq_ok_iff, topClass_eq_ok_iff] at h
    obtain ⟨cls, ⟨nested, hnested, rfl⟩, rfl⟩ := h
    have hne : bindings ≠ [] := fun heq => hempty (List.isEmpty_iff.mpr heq)
    exact ⟨.some hne hnested rfl rfl rfl rfl, rfl⟩

/-- Adding variables to a model leaves its response as it is. -/
theorem responseClass_of_addVariables {model model' : ClassModel}
    (h : addVariables schema model bindings = .ok model') :
    model'.responseClass = model.responseClass := by
  rw [addVariables] at h
  split at h
  · obtain rfl := Except.ok.inj h
    rfl
  · simp only [bind_eq_ok_iff, pure_eq_ok_iff] at h
    obtain ⟨cls, -, flat, -, rfl⟩ := h
    rfl

/-- **Every class model consists of its parts**: those of the bindings of the variables and those
of the bindings of the selection set. -/
theorem exists_parts {package : String} {operation : Operation} {model : ClassModel}
    (h : ClassModel.ofOperation schema package operation = .ok model) :
    ∃ vars fields, variableBindings schema operation = .ok vars ∧
      responseBindings schema operation = .ok fields ∧
      HasVariables schema operation.name model vars ∧
      HasResponse schema operation.name model fields := by
  rw [ClassModel.ofOperation] at h
  simp only [bind_eq_ok_iff] at h
  obtain ⟨vars, hvars, fields, hfields, middle, hmiddle, hmodel⟩ := h
  obtain ⟨hvariables, hname⟩ := hasVariables_of_addVariables ⟨rfl, rfl, rfl⟩ hmiddle
  have hnone : middle.responseClass = none := responseClass_of_addVariables hmiddle
  obtain ⟨hresponse, hsame⟩ := hasResponse_of_addResponse hnone hmodel
  rw [hname] at hresponse
  refine ⟨vars, fields, hvars, hfields, ?_, hresponse⟩
  cases hvariables with
  | none hclass hparameters harguments =>
      rw [hsame]
      exact .none hclass hparameters harguments
  | some hne hnested hflat hclass hname hparameters hinner hhelper harguments =>
      rw [hsame]
      exact .some hne hnested hflat hclass hname hparameters hinner hhelper harguments

/-- A model has the name of its operation. -/
theorem operationName_of_ofOperation {package : String} {operation : Operation}
    {model : ClassModel} (h : ClassModel.ofOperation schema package operation = .ok model) :
    model.operationName = operation.name := by
  rw [ClassModel.ofOperation] at h
  simp only [bind_eq_ok_iff] at h
  obtain ⟨vars, -, fields, -, middle, hmiddle, hmodel⟩ := h
  have hnone : middle.responseClass = none := responseClass_of_addVariables hmiddle
  rw [(hasResponse_of_addResponse hnone hmodel).2]
  exact (hasVariables_of_addVariables ⟨rfl, rfl, rfl⟩ hmiddle).2

/-- **A class model that cannot be built** fails for its variables, as it would without
selections, or where its selections are read, or where the nested classes of its response are
searched for. -/
theorem cause_of_ofOperation_eq_error {package : String} {operation : Operation}
    {e : GenerationError} (h : ClassModel.ofOperation schema package operation = .error e) :
    ClassModel.ofOperation schema package { operation with selections := [] } = .error e ∨
      responseBindings schema operation = .error e ∨
      ∃ fields, responseBindings schema operation = .ok fields ∧
        innerClasses schema operation.name fields .agree = .error e := by
  rw [ClassModel.ofOperation, bind_eq_error_iff] at h
  rcases h with hvars | ⟨vars, hvars, h⟩
  · left
    rw [ClassModel.ofOperation, bind_eq_error_iff]
    exact Or.inl hvars
  rw [bind_eq_error_iff] at h
  rcases h with hfields | ⟨fields, hfields, h⟩
  · exact Or.inr (Or.inl hfields)
  dsimp only at h
  rw [bind_eq_error_iff] at h
  rcases h with hvariables | ⟨middle, hmiddle, hresponse⟩
  · left
    rw [ClassModel.ofOperation, bind_eq_error_iff]
    refine Or.inr ⟨vars, hvars, ?_⟩
    rw [bind_eq_error_iff]
    refine Or.inr ⟨[], rfl, ?_⟩
    dsimp only
    rw [bind_eq_error_iff]
    exact Or.inl hvariables
  · refine Or.inr (Or.inr ⟨fields, hfields, ?_⟩)
    have hname := (hasVariables_of_addVariables ⟨rfl, rfl, rfl⟩ hmiddle).2
    rw [addResponse] at hresponse
    split at hresponse
    · cases hresponse
    · have htop := eq_error_of_bind_pure hresponse
      rw [topClass, hname] at htop
      exact eq_error_of_bind_pure htop

end Build

end ClientSdk
