import ClientSdk.Proofs.Build.Cycles

/-!
# Closure of the Nested Classes

The search for nested classes ends with one class for each type that it has found. These classes
are complete: each belongs to a type that a chain of kept fields leads to, it keeps the fields
that the projection recorded for its type includes, and whatever it keeps leads to a scalar or
to another class. This holds on every schema, whatever the chains of types return to. For the
variables of an operation the recorded projections are known: a pick list restricts the type of
its own variable and no other.

## Main definitions

* `Leads`: a chain of fields that the classes keep leads to a type.
* `StandsFor`: what holds of each class, `ClosedClasses`: what holds of all of them.
* `Variable.picks`: the fields that a variable picks.

## Main results

* `exists_closedClasses`: the classes that the search gives are closed.
* `innerClasses_closed`: so they are for every list of bindings, and for the variables of an
  operation they have all fields or those that are picked.
-/

namespace ClientSdk

/-- The variable picks the field called `name`: it is on the pick list, if there is one. -/
def Variable.picks (var : Variable) (name : String) : Bool :=
  var.pick.all fun names => names.contains name

namespace Build

variable {schema : Schema} {operation : String} {policy : ListPolicy} {bindings : List Binding}
  {visited : List QueuedType} {recorded : String → Projection} {classes : List ClassDecl}

/-! ### Closed lists of classes -/

/-- The fields of `type` that its class keeps, in declaration order: those that the projection
recorded under its name includes. -/
def keptFields (recorded : String → Projection) (type : TypeDef) : List FieldDef :=
  type.fields.filter fun field => (recorded type.name).includes field.name

/-- A chain of fields, each of them kept by the class of the type that declares it, leads from
the type of a binding to a type. What is recorded for the types along the chain is what the
projection before it has under the field. -/
inductive Leads (schema : Schema) (bindings : List Binding) (recorded : String → Projection)
    (classes : List ClassDecl) : TypeDef → Prop
  | root {binding : Binding} : binding ∈ bindings → binding.isScalar = false →
      Leads schema bindings recorded classes binding.definition
  | field {type child : TypeDef} {cls : ClassDecl} {field : FieldDef} :
      Leads schema bindings recorded classes type → cls ∈ classes → cls.name = type.name →
      field ∈ keptFields recorded type → schema.get? field.type.leafName = some child →
      child.isScalar = false →
      recorded child.name = (recorded type.name).child field.name →
      Leads schema bindings recorded classes child

/-- One of the classes is that of `type`. -/
structure StandsFor (schema : Schema) (policy : ListPolicy) (bindings : List Binding)
    (recorded : String → Projection) (classes : List ClassDecl) (cls : ClassDecl)
    (type : TypeDef) : Prop where
  /-- The class is called like its type. -/
  get?_eq : schema.get? cls.name = some type
  /-- The type is no scalar. -/
  isScalar_eq : type.isScalar = false
  /-- Kept fields lead from a binding to the type. -/
  leads : Leads schema bindings recorded classes type
  /-- The members are the kept fields. -/
  members_eq : cls.members = membersOf (keptFields recorded type)
  /-- Each kept field leads to a scalar or to a class. Only a list that may reuse a class does
  not have the projection that is recorded for the class. -/
  closed : ∀ field ∈ keptFields recorded type, ∃ child,
    schema.get? field.type.leafName = some child ∧ (child.isScalar = false →
      (∃ other ∈ classes, other.name = child.name) ∧
        (recorded child.name = (recorded type.name).child field.name ∨
          policy = .reuse ∧ field.type.isList = true))

/-- The classes are those of the types that the bindings call for, each with the recorded
projection. -/
structure ClosedClasses (schema : Schema) (policy : ListPolicy) (bindings : List Binding)
    (recorded : String → Projection) (classes : List ClassDecl) : Prop where
  /-- The classes have distinct names. -/
  nodup : (classes.map (·.name)).Nodup
  /-- The type of a binding has a class, and the projection of the binding is recorded for it. -/
  rooted : ∀ binding ∈ bindings, binding.isScalar = false →
    (∃ cls ∈ classes, cls.name = binding.definition.name) ∧
      recorded binding.definition.name = binding.projection.normalize schema binding.definition
  /-- Each class is that of a type. -/
  standsFor : ∀ cls ∈ classes, ∃ type,
    StandsFor schema policy bindings recorded classes cls type

/-! ### The classes of discovered types -/

/-- The projection of the visited type called `name`. -/
def projectionOf (visited : List QueuedType) (name : String) : Projection :=
  ((visited.find? fun queued => queued.name == name).map (·.projection)).getD .all

/-- Each visited type is found with its projection. -/
theorem Discovered.projectionOf_eq (h : Discovered schema policy bindings visited)
    {queued : QueuedType} (hqueued : queued ∈ visited) :
    projectionOf visited queued.definition.name = queued.projection := by
  rw [projectionOf, ← QueuedType.name, find?_eq_some_of_nodup h.nodup hqueued, Option.map_some,
    Option.getD_some]

/-- The class of a visited type keeps the fields that take part. -/
theorem Discovered.keptFields_eq (h : Discovered schema policy bindings visited)
    {queued : QueuedType} (hqueued : queued ∈ visited) :
    keptFields (projectionOf visited) queued.definition = queued.fields := by
  rw [keptFields, h.projectionOf_eq hqueued, QueuedType.fields]

/-- **The fields along which a type is reached are kept by the classes.** Induction on the chain,
whose types are all visited. -/
theorem Reached.leads (hdiscovered : Discovered schema policy bindings visited)
    {queued : QueuedType} (h : Reached schema policy bindings visited queued)
    (hqueued : queued ∈ visited) :
    Leads schema bindings (projectionOf visited) (visited.map QueuedType.decl)
      queued.definition := by
  induction h with
  | root hbinding hscalar => exact .root hbinding hscalar
  | @field owner field child _ howner hfield hget hscalar _ ih =>
      refine .field (ih howner) (List.mem_map_of_mem howner) rfl ?_ hget hscalar ?_
      · rwa [hdiscovered.keptFields_eq howner]
      · rw [hdiscovered.projectionOf_eq howner]
        exact hdiscovered.projectionOf_eq hqueued

/-- The class of a visited type is that of its definition. -/
theorem Discovered.standsFor (hkeyed : schema.Keyed) (hresolved : Resolved schema bindings)
    (h : Discovered schema policy bindings visited) {queued : QueuedType}
    (hqueued : queued ∈ visited) :
    StandsFor schema policy bindings (projectionOf visited) (visited.map QueuedType.decl)
      queued.decl queued.definition := by
  have hreached := h.reached queued hqueued
  obtain ⟨key, hkey⟩ := hreached.exists_get? hresolved
  refine ⟨?_, hreached.isScalar_eq_false, hreached.leads h hqueued, ?_, ?_⟩
  · rwa [← hkeyed.name_eq hkey] at hkey
  · rw [h.keptFields_eq hqueued, queued.members_decl]
  · intro field hfield
    rw [h.keptFields_eq hqueued] at hfield
    obtain ⟨child, hget, -⟩ := (h.followed queued hqueued).2 field hfield
    refine ⟨child, hget, fun hscalar => ?_⟩
    rcases h.field hkeyed hresolved hqueued hfield hget hscalar with
      ⟨other, hother, rfl, hprojection⟩ | ⟨hpolicy, hlist, other, hother, hname⟩
    · refine ⟨⟨other.decl, List.mem_map_of_mem hother, rfl⟩, Or.inl ?_⟩
      rw [h.projectionOf_eq hother, h.projectionOf_eq hqueued, hprojection]
    · exact ⟨⟨other.decl, List.mem_map_of_mem hother, hname⟩, Or.inr ⟨hpolicy, hlist⟩⟩

/-- **The classes that the search gives are closed.** -/
theorem exists_closedClasses (hkeyed : schema.Keyed) (hresolved : Resolved schema bindings)
    (h : innerClasses schema operation bindings policy = .ok classes) :
    ∃ recorded, ClosedClasses schema policy bindings recorded classes := by
  obtain ⟨visited, hdiscovered, rfl⟩ := exists_discovered h
  refine ⟨projectionOf visited, hdiscovered.nodup_names, ?_, ?_⟩
  · intro binding hbinding hscalar
    obtain ⟨queued, hqueued, hname, hprojection⟩ := hdiscovered.rooted binding hbinding hscalar
    refine ⟨⟨queued.decl, List.mem_map_of_mem hqueued, hname⟩, ?_⟩
    rw [show binding.definition.name = queued.definition.name from hname.symm,
      hdiscovered.projectionOf_eq hqueued, hprojection]
    rfl
  · intro cls hcls
    obtain ⟨queued, hqueued, rfl⟩ := List.mem_map.mp hcls
    exact ⟨queued.definition, hdiscovered.standsFor hkeyed hresolved hqueued⟩

/-! ### Classes for variables -/

/-- The projection of a variable includes the fields that the variable picks. -/
theorem includes_ofPick {var : Variable} {type : TypeDef} {p : Projection}
    (h : Projection.ofPick var type = .ok p) (name : String) :
    p.includes name = var.picks name := by
  rw [Variable.picks]
  rcases Projection.ofPick_cases h with ⟨hpick, rfl⟩ | ⟨names, entries, hpick, rfl, -, hlookup⟩
  · rw [hpick]
    rfl
  · rw [hpick, Projection.includes, hlookup]
    by_cases hname : name ∈ names
    · simp [hname]
    · simp [hname]

/-- Where the bindings restrict their own types only, whatever a class keeps has all of its own
fields. Induction on the chain that leads to the type. -/
theorem Leads.child_eq_all (hclosed : ClosedClasses schema policy bindings recorded classes)
    (hshallow : ∀ binding ∈ bindings, ∀ name, binding.projection.child name = .all)
    {type : TypeDef} (h : Leads schema bindings recorded classes type) :
    ∀ name, (recorded type.name).child name = .all := by
  induction h with
  | root hbinding hscalar =>
      intro name
      rw [(hclosed.rooted _ hbinding hscalar).2]
      exact child_normalize_eq_all (hshallow _ hbinding) name
  | field _ _ _ _ _ _ hrecorded ih =>
      intro name
      rw [hrecorded, ih]
      rfl

/-- Where everything is recorded for a type, its class keeps all fields. -/
theorem keptFields_of_eq_all {type : TypeDef} (h : recorded type.name = .all) :
    keptFields recorded type = type.fields := by
  rw [keptFields, h]
  exact List.filter_true ..

/-- The class of a type that is the type of no variable keeps all fields. -/
theorem StandsFor.members_of_not_root {operation : Operation} (hkeyed : schema.Keyed)
    (hvars : variableBindings schema operation = .ok bindings)
    (hclosed : ClosedClasses schema policy bindings recorded classes) {cls : ClassDecl}
    {type : TypeDef} (h : StandsFor schema policy bindings recorded classes cls type)
    (hroot : ∀ var ∈ operation.vars, var.type.leafName ≠ cls.name) :
    cls.members = membersOf type.fields := by
  have hshallow : ∀ binding ∈ bindings, ∀ name, binding.projection.child name = .all := by
    intro binding hbinding
    obtain ⟨var, -, hvar⟩ := exists_variable_of_mem hvars hbinding
    exact Projection.child_of_ofPick (variableBinding_eq_ok_iff.mp hvar).2.2.2
  have hname := hkeyed.name_eq h.get?_eq
  rw [h.members_eq, keptFields_of_eq_all]
  cases h.leads with
  | root hbinding _ =>
      obtain ⟨var, hmem, hvar⟩ := exists_variable_of_mem hvars hbinding
      have hleaf := hkeyed.name_eq (variableBinding_eq_ok_iff.mp hvar).2.2.1
      exact absurd (hleaf.symm.trans hname) (hroot var hmem)
  | field howner _ _ _ _ _ hrecorded =>
      rw [hrecorded, howner.child_eq_all hclosed hshallow]

/-- The class of the type of a variable keeps the picked fields. -/
theorem StandsFor.members_of_root {operation : Operation}
    (hvars : variableBindings schema operation = .ok bindings)
    (hclosed : ClosedClasses schema policy bindings recorded classes) {cls : ClassDecl}
    {type : TypeDef} (h : StandsFor schema policy bindings recorded classes cls type)
    {var : Variable} (hvar : var ∈ operation.vars) (hleaf : var.type.leafName = cls.name) :
    cls.members = membersOf (type.fields.filter fun field => var.picks field.name) := by
  obtain ⟨binding, hbinding, hmake⟩ := exists_mem_of_mapM hvars hvar
  obtain ⟨-, -, hget, hpick⟩ := variableBinding_eq_ok_iff.mp hmake
  rw [hleaf, h.get?_eq] at hget
  obtain rfl := Option.some.inj hget
  rw [h.members_eq, keptFields, (hclosed.rooted binding hbinding h.isScalar_eq).2]
  refine congrArg membersOf (List.filter_congr fun field hfield => ?_)
  rw [Projection.includes_normalize _ (TypeDef.hasField_of_mem hfield), includes_ofPick hpick]

end Build

open Build

/-- **The nested classes are closed, distinct and complete.** On a keyed schema, for bindings with
types of that schema: the names of the classes are distinct, the type of each binding has one,
each class belongs to a type that kept fields lead to, has the kept fields of that type as its
members, and has a class for each of them that holds objects. If the bindings are the variables
of an operation, then the class of a type has all of its fields, or the picked ones where it is
the type of a variable. -/
theorem innerClasses_closed {schema : Schema} {operation : String} {policy : ListPolicy}
    {bindings : List Binding} {classes : List ClassDecl} (hkeyed : schema.Keyed)
    (hresolved : Resolved schema bindings)
    (h : innerClasses schema operation bindings policy = .ok classes) :
    (∃ recorded, ClosedClasses schema policy bindings recorded classes) ∧
      ∀ op, variableBindings schema op = .ok bindings → ∀ cls ∈ classes,
        ∃ type, schema.get? cls.name = some type ∧
          ((∀ var ∈ op.vars, var.type.leafName ≠ cls.name) →
            cls.members = membersOf type.fields) ∧
          ∀ var ∈ op.vars, var.type.leafName = cls.name →
            cls.members = membersOf (type.fields.filter fun field => var.picks field.name) := by
  obtain ⟨recorded, hclosed⟩ := exists_closedClasses hkeyed hresolved h
  refine ⟨⟨recorded, hclosed⟩, fun op hvars cls hcls => ?_⟩
  obtain ⟨type, hstands⟩ := hclosed.standsFor cls hcls
  exact ⟨type, hstands.get?_eq, hstands.members_of_not_root hkeyed hvars hclosed,
    fun var hvar hleaf => hstands.members_of_root hvars hclosed hvar hleaf⟩

/-- Plants that stand in beds, and beds with the plants that stand in them. -/
def gardenSchema : Schema where
  types := .ofList (standardScalars.map .givenScalar ++ [
    { name := "Plant", kind := .input, fields := [
        { name := "name", type := .named "String" false },
        { name := "bed", type := .named "Bed" true },
        { name := "cuttings", type := .list (.named "Plant" false) false }] },
    { name := "Bed", kind := .input, fields := [
        { name := "width", type := .named "Float" false },
        { name := "plants", type := .list (.named "Plant" false) true }] }])
  query := { name := "Query" }
  mutation := { name := "Mutation", fields := [
    { name := "sow", type := .named "Int" true, arguments := [
        { name := "plant", type := .named "Plant" false }] }] }

/-- Takes a plant without its cuttings. -/
def sowPlant : Operation where
  name := "Sow"
  kind := .mutation
  vars := [{ name := "plant", type := .named "Plant" false, pick := some ["name", "bed"] }]
  selections := [.field "sow" none []]

/-- The class of plants has the two picked fields. That of beds has all of its fields, and the
list of plants in it holds the class with two fields. -/
theorem innerClasses_closed_sowPlant :
    ∃ bindings classes, variableBindings gardenSchema sowPlant = .ok bindings ∧
      innerClasses gardenSchema "Sow" bindings .reuse = .ok classes ∧
      classes.map (·.name) = ["Plant", "Bed"] ∧
      (∃ recorded, ClosedClasses gardenSchema .reuse bindings recorded classes) ∧
      ∀ cls ∈ classes, ∃ type, gardenSchema.get? cls.name = some type ∧
        (cls.name ≠ "Plant" → cls.members = membersOf type.fields) ∧
        (cls.name = "Plant" → cls.members =
          membersOf (type.fields.filter fun field => ["name", "bed"].contains field.name)) := by
  have hkeyed : gardenSchema.Keyed := by decide
  obtain ⟨bindings, hbindings⟩ : ∃ bindings,
      variableBindings gardenSchema sowPlant = .ok bindings := ⟨_, rfl⟩
  obtain ⟨classes, hclasses, hnames⟩ : ∃ classes,
      innerClasses gardenSchema "Sow" bindings .reuse = .ok classes ∧
        classes.map (·.name) = ["Plant", "Bed"] := by
    cases hbindings
    exact ⟨_, rfl, rfl⟩
  obtain ⟨hclosed, hmembers⟩ := innerClasses_closed hkeyed
    (resolved_of_variableBindings hbindings) hclasses
  refine ⟨bindings, classes, hbindings, hclasses, hnames, hclosed, fun cls hcls => ?_⟩
  obtain ⟨type, hget, hother, hpicked⟩ := hmembers sowPlant hbindings cls hcls
  refine ⟨type, hget, fun hne => hother fun var hvar hleaf => ?_, fun heq => ?_⟩
  · obtain rfl := List.mem_singleton.mp hvar
    exact hne hleaf.symm
  · exact hpicked _ List.mem_cons_self heq.symm

end ClientSdk
