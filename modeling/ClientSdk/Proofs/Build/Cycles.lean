import ClientSdk.Proofs.Build.Model
import ClientSdk.Proofs.Projection.NormalForm
import Mathlib.Logic.Relation

/-!
# Classes That Contain Themselves

A generated class whose objects would contain objects of the same class, without a list in
between, has no values of finite size. The search for nested classes follows one chain of
single-valued fields to each type, the one along which the type is reached first, and reports a
cycle when such a chain returns. A cycle between types that are reached along different chains
is missed. So the classes of a model are free of cycles exactly when the types that the
operation uses are.

## Main definitions

* `ClassDecl.SelfContaining`: a class has nested classes that contain themselves.
* `Used`, `Embeds`: the types that bindings use, and which of them contains which.

## Main results

* `classes_acyclic_iff`: the classes of a model are free of cycles exactly when the used
  types are.
* `selfContaining_of_findLoop`: a model with a cycle is built.
-/

namespace ClientSdk

/-! ### Containment -/

namespace ClassDecl

/-- Objects of the nested class `inner` contain objects of the nested class `other`, with no list
in between. -/
def Embeds (cls inner other : ClassDecl) : Prop :=
  inner ∈ cls.nested ∧ other ∈ cls.nested ∧
    ∃ param ∈ inner.parameters, ∃ nullable, param.type = .named other.name nullable

/-- A chain of nested classes, each of which contains the next, returns to its start. -/
def SelfContaining (cls : ClassDecl) : Prop :=
  ∃ inner, Relation.TransGen cls.Embeds inner inner

end ClassDecl

namespace Build

/-- A type of objects that the bindings use, with a projection on the fields in use: the type of a
binding, and the types that the fields in use lead to. -/
inductive Used (schema : Schema) (policy : ListPolicy) (bindings : List Binding) :
    TypeDef → Projection → Prop
  | root {binding : Binding} : binding ∈ bindings → binding.isScalar = false →
      Used schema policy bindings binding.definition
        (binding.projection.normalize schema binding.definition)
  | field {type child : TypeDef} {p : Projection} {field : FieldDef} :
      Used schema policy bindings type p → field ∈ type.fields →
      p.includes field.name = true → schema.get? field.type.leafName = some child →
      child.isScalar = false → ¬ReusesRoot policy bindings field child →
      Used schema policy bindings child (p.child field.name)

/-- The used type `type` has a single-valued field in use whose members are called like the used
type `other`. -/
def Embeds (schema : Schema) (policy : ListPolicy) (bindings : List Binding)
    (type other : TypeDef) : Prop :=
  ∃ p q, Used schema policy bindings type p ∧ Used schema policy bindings other q ∧
    ∃ field ∈ type.fields, p.includes field.name = true ∧ field.type.isList = false ∧
      memberName field.type.leafName = other.name

variable {schema : Schema} {policy : ListPolicy} {bindings : List Binding}
  {visited : List QueuedType}

/-! ### Projections of picks -/

/-- A projection that restricts one type only keeps doing so in normal form. -/
theorem child_normalize_eq_all {type : TypeDef} {p : Projection}
    (h : ∀ name, p.child name = .all) (name : String) :
    (p.normalize schema type).child name = .all := by
  cases p with
  | all =>
      rw [Projection.normalize_all]
      exact h name
  | fields entries =>
      rw [Projection.normalize_fields]
      split
      · rfl
      · rw [Projection.child, Projection.lookup_normalizeEntries]
        have hname : (entries.lookup name).getD .all = .all := h name
        cases hlookup : entries.lookup name with
        | none => rfl
        | some q =>
            rw [hlookup, Option.getD_some] at hname
            rw [Option.map_some, Option.getD_some, hname, Projection.normalizeChild]
            split
            · exact Projection.normalize_all
            · rfl

/-- Where the projections of the bindings restrict one type only, so does that of each type that
is reached. -/
theorem Reached.child_eq_all
    (hshallow : ∀ binding ∈ bindings, ∀ name, binding.projection.child name = .all)
    {queued : QueuedType} (h : Reached schema policy bindings visited queued) :
    ∀ name, queued.projection.child name = .all := by
  induction h with
  | root hbinding _ =>
      intro name
      exact child_normalize_eq_all (hshallow _ hbinding) name
  | field _ _ _ _ _ _ ih =>
      intro name
      rw [QueuedType.projection_along, ih]
      rfl

/-! ### Used types and visited types -/

/-- A type that is reached is used. -/
theorem Reached.used {queued : QueuedType}
    (h : Reached schema policy bindings visited queued) :
    Used schema policy bindings queued.definition queued.projection := by
  induction h with
  | root hbinding hscalar => exact .root hbinding hscalar
  | field _ _ hfield hget hscalar hreuse ih =>
      obtain ⟨hdeclared, hincludes⟩ := QueuedType.mem_fields_iff.mp hfield
      exact .field ih hdeclared hincludes hget hscalar hreuse

/-- **A type that is used is visited**, with the projection with which it is used. A list that
reuses a class meets the same projection there, since both are `all`. -/
theorem Discovered.exists_of_used (hkeyed : schema.Keyed)
    (hresolved : Resolved schema bindings)
    (hshallow : policy = .reuse →
      ∀ binding ∈ bindings, ∀ name, binding.projection.child name = .all)
    (hdiscovered : Discovered schema policy bindings visited) {type : TypeDef}
    {p : Projection} (h : Used schema policy bindings type p) :
    ∃ queued ∈ visited, queued.definition = type ∧ queued.projection = p := by
  induction h with
  | root hbinding hscalar =>
      exact (hdiscovered.rooted _ hbinding hscalar).exists_definition_eq hkeyed hresolved
        hdiscovered.reached (hresolved _ hbinding)
  | @field type child p field _ hfield hincludes hget hscalar hreuse ih =>
      obtain ⟨queued, hqueued, rfl, rfl⟩ := ih
      rcases hdiscovered.field hkeyed hresolved hqueued
        (QueuedType.mem_fields_iff.mpr ⟨hfield, hincludes⟩) hget hscalar with
        hvisited | ⟨hpolicy, hlist, other, hother, hname⟩
      · exact hvisited
      · have hreached := hdiscovered.reached other hother
        obtain ⟨key, hgetOther⟩ := hreached.exists_get? hresolved
        refine ⟨other, hother, hkeyed.eq_of_name_eq hgetOther hget hname, ?_⟩
        rw [(hdiscovered.reached queued hqueued).child_eq_all (hshallow hpolicy)]
        cases hreached with
        | root hbinding hrootScalar =>
            exact absurd ⟨hpolicy, hlist, _, hbinding, hrootScalar, hname⟩ hreuse
        | field hparent _ _ _ _ _ =>
            exact hparent.child_eq_all (hshallow hpolicy) _

/-- A visited type has a parameter called like another type where it has a single-valued field in
use whose members are called like it. -/
theorem exists_parameter_iff {queued : QueuedType} {name : String} :
    (∃ param ∈ queued.decl.parameters, ∃ nullable, param.type = .named name nullable) ↔
      ∃ field ∈ queued.fields, field.type.isList = false ∧
        memberName field.type.leafName = name := by
  constructor
  · rintro ⟨marked, hmarked, nullable, htype⟩
    obtain ⟨param, hparam, -, hsame⟩ := Parameter.exists_mem_of_mem_markLast hmarked
    obtain ⟨field, hfield, rfl⟩ := List.mem_map.mp hparam
    obtain ⟨hlist, hname, -⟩ := MemberType.ofRef_eq_named_iff.mp (hsame.trans htype)
    exact ⟨field, hfield, hlist, hname⟩
  · rintro ⟨field, hfield, hlist, hname⟩
    obtain ⟨marked, hmarked, -, hsame⟩ := Parameter.exists_mem_markLast
      (List.mem_map_of_mem (f := fun field => Parameter.of field.name field.type) hfield)
    exact ⟨marked, hmarked, field.type.nullable,
      hsame.trans (MemberType.ofRef_eq_named_iff.mpr ⟨hlist, hname, rfl⟩)⟩

/-- Containment of classes is containment of used types: the definition of a class is looked up
under its name. -/
theorem embeds_of_classEmbeds (hkeyed : schema.Keyed) (hresolved : Resolved schema bindings)
    (hdiscovered : Discovered schema policy bindings visited) {cls : ClassDecl}
    (hnested : cls.nested = visited.map QueuedType.decl) {inner other : ClassDecl}
    (h : cls.Embeds inner other) :
    Embeds schema policy bindings ((schema.get? inner.name).getD default)
      ((schema.get? other.name).getD default) := by
  have hlookup : ∀ queued ∈ visited,
      (schema.get? queued.decl.name).getD default = queued.definition := by
    intro queued hqueued
    obtain ⟨key, hget⟩ := (hdiscovered.reached queued hqueued).exists_get? hresolved
    obtain rfl := hkeyed.name_eq hget
    exact congrArg (·.getD default) hget
  obtain ⟨hinner, hother, hparam⟩ := h
  rw [hnested] at hinner hother
  obtain ⟨queued, hqueued, rfl⟩ := List.mem_map.mp hinner
  obtain ⟨target, htarget, rfl⟩ := List.mem_map.mp hother
  obtain ⟨field, hfield, hlist, hname⟩ := exists_parameter_iff.mp hparam
  obtain ⟨hdeclared, hincludes⟩ := QueuedType.mem_fields_iff.mp hfield
  rw [hlookup queued hqueued, hlookup target htarget]
  exact ⟨queued.projection, target.projection, (hdiscovered.reached queued hqueued).used,
    (hdiscovered.reached target htarget).used, field, hdeclared, hincludes, hlist, hname⟩

/-- Containment of used types is containment of classes: the class of a type is looked up under
its name. -/
theorem classEmbeds_of_embeds (hkeyed : schema.Keyed) (hresolved : Resolved schema bindings)
    (hshallow : policy = .reuse →
      ∀ binding ∈ bindings, ∀ name, binding.projection.child name = .all)
    (hdiscovered : Discovered schema policy bindings visited) {cls : ClassDecl}
    (hnested : cls.nested = visited.map QueuedType.decl) {type other : TypeDef}
    (h : Embeds schema policy bindings type other) :
    cls.Embeds ((cls.inner? type.name).getD default) ((cls.inner? other.name).getD default) := by
  have hfind : ∀ queued ∈ visited, cls.inner? queued.definition.name = some queued.decl := by
    intro queued hqueued
    rw [ClassDecl.inner?, hnested]
    exact hdiscovered.find?_eq hqueued
  obtain ⟨p, q, htype, hother, field, hfield, hincludes, hlist, hname⟩ := h
  obtain ⟨queued, hqueued, rfl, rfl⟩ :=
    hdiscovered.exists_of_used hkeyed hresolved hshallow htype
  obtain ⟨target, htarget, rfl, rfl⟩ :=
    hdiscovered.exists_of_used hkeyed hresolved hshallow hother
  rw [hfind queued hqueued, hfind target htarget, Option.getD_some, Option.getD_some]
  refine ⟨hnested ▸ List.mem_map_of_mem hqueued, hnested ▸ List.mem_map_of_mem htarget, ?_⟩
  exact exists_parameter_iff.mpr
    ⟨field, QueuedType.mem_fields_iff.mpr ⟨hfield, hincludes⟩, hlist, hname⟩

/-- **The classes of discovered types contain themselves exactly when used types do.** -/
theorem Discovered.selfContaining_iff (hkeyed : schema.Keyed)
    (hresolved : Resolved schema bindings)
    (hshallow : policy = .reuse →
      ∀ binding ∈ bindings, ∀ name, binding.projection.child name = .all)
    (hdiscovered : Discovered schema policy bindings visited) {cls : ClassDecl}
    (hnested : cls.nested = visited.map QueuedType.decl) :
    cls.SelfContaining ↔ ∃ type, Relation.TransGen (Embeds schema policy bindings) type type := by
  constructor
  · rintro ⟨inner, hcycle⟩
    exact ⟨_, hcycle.lift (fun inner => (schema.get? inner.name).getD default)
      fun _ _ h => embeds_of_classEmbeds hkeyed hresolved hdiscovered hnested h⟩
  · rintro ⟨type, hcycle⟩
    exact ⟨_, hcycle.lift (fun type => (cls.inner? type.name).getD default)
      fun _ _ h => classEmbeds_of_embeds hkeyed hresolved hshallow hdiscovered hnested h⟩

/-- No type that the bindings use contains itself through single-valued fields. -/
def Acyclic (schema : Schema) (policy : ListPolicy) (bindings : List Binding) : Prop :=
  ∀ type, ¬Relation.TransGen (Embeds schema policy bindings) type type

/-- The classes of discovered types are free of cycles exactly when the used types are. -/
theorem Discovered.not_selfContaining_iff (hkeyed : schema.Keyed)
    (hresolved : Resolved schema bindings)
    (hshallow : policy = .reuse →
      ∀ binding ∈ bindings, ∀ name, binding.projection.child name = .all)
    (hdiscovered : Discovered schema policy bindings visited) {cls : ClassDecl}
    (hnested : cls.nested = visited.map QueuedType.decl) :
    ¬cls.SelfContaining ↔ Acyclic schema policy bindings := by
  rw [Acyclic, ← not_exists]
  exact not_congr (hdiscovered.selfContaining_iff hkeyed hresolved hshallow hnested)

/-- Without bindings no type contains itself, since none is used. -/
theorem acyclic_nil : Acyclic schema policy [] := by
  have hunused : ∀ {type : TypeDef} {p : Projection}, ¬Used schema policy [] type p := by
    intro type p hused
    induction hused with
    | root hbinding _ => exact List.not_mem_nil hbinding
    | field _ _ _ _ _ _ ih => exact ih
  intro type hcycle
  obtain ⟨other, ⟨p, -, hused, -⟩, -⟩ := Relation.TransGen.head'_iff.mp hcycle
  exact hunused hused

end Build

open Build

/-- **The classes of a model are free of cycles exactly when the used types are**: neither the
class of the variables nor that of the response has nested classes that contain themselves if
and only if no type does that the variables or the response use. The search for nested classes
rejects some cycles, and no more than this is true of the models that are built. -/
theorem classes_acyclic_iff {schema : Schema} {package : String} {operation : Operation}
    {model : ClassModel} {vars fields : List Binding} (hkeyed : schema.Keyed)
    (hvars : variableBindings schema operation = .ok vars)
    (hfields : responseBindings schema operation = .ok fields)
    (h : ClassModel.ofOperation schema package operation = .ok model) :
    (∀ cls, model.variablesClass = some cls ∨ model.responseClass = some cls →
        ¬cls.SelfContaining) ↔
      Acyclic schema .reuse vars ∧ Acyclic schema .agree fields := by
  obtain ⟨vars', fields', hvars', hfields', hvariables, hresponse⟩ := exists_parts h
  obtain rfl := Except.ok.inj (hvars.symm.trans hvars')
  obtain rfl := Except.ok.inj (hfields.symm.trans hfields')
  have hreuse : (∀ cls, model.variablesClass = some cls → ¬cls.SelfContaining) ↔
      Acyclic schema .reuse vars := by
    have hresolved := resolved_of_variableBindings hvars
    cases hvariables with
    | none hclass => simp [hclass, acyclic_nil]
    | some _ hnested _ hclass _ _ hinner =>
        obtain ⟨visited, hdiscovered, rfl⟩ := exists_discovered hnested
        have hshallow : ListPolicy.reuse = .reuse →
            ∀ binding ∈ vars, ∀ name, binding.projection.child name = .all := by
          intro _ binding hbinding
          obtain ⟨var, -, hvar⟩ := exists_variable_of_mem hvars hbinding
          exact Projection.child_of_ofPick (variableBinding_eq_ok_iff.mp hvar).2.2.2
        simp only [hclass, Option.some.injEq, forall_eq']
        exact hdiscovered.not_selfContaining_iff hkeyed hresolved hshallow hinner
  have hagree : (∀ cls, model.responseClass = some cls → ¬cls.SelfContaining) ↔
      Acyclic schema .agree fields := by
    have hresolved := resolved_of_responseBindings hfields
    cases hresponse with
    | none hclass => simp [hclass, acyclic_nil]
    | some _ hnested hclass _ _ hinner =>
        obtain ⟨visited, hdiscovered, rfl⟩ := exists_discovered hnested
        simp only [hclass, Option.some.injEq, forall_eq']
        exact hdiscovered.not_selfContaining_iff hkeyed hresolved
          (fun hpolicy => by cases hpolicy) hinner
  rw [← hreuse, ← hagree]
  simp only [or_imp, forall_and]

/-- Three input types. The first leads to each of the others, and these contain each other. -/
def loopSchema : Schema where
  types := .ofList (standardScalars.map .givenScalar ++ [
    { name := "A", kind := .input, fields := [
        { name := "b", type := .named "B" true }, { name := "c", type := .named "C" true }] },
    { name := "B", kind := .input, fields := [{ name := "c", type := .named "C" true }] },
    { name := "C", kind := .input, fields := [{ name := "b", type := .named "B" true }] }])
  query := { name := "Query", fields := [
    { name := "find", type := .named "Int" true, arguments := [
        { name := "xs", type := .list (.named "A" true) true }] }] }
  mutation := { name := "Mutation" }

/-- Takes a list of the first of the three types. -/
def findLoop : Operation where
  name := "Find"
  kind := .query
  vars := [{ name := "xs", type := .list (.named "A" true) true }]
  selections := [.field "find" none []]

/-- **A model with a cycle is built.** The two types that contain each other are reached from the
third along different chains, and neither chain returns. -/
theorem selfContaining_of_findLoop :
    ∃ model cls, ClassModel.ofOperation loopSchema "crate" findLoop = .ok model ∧
      model.variablesClass = some cls ∧ cls.SelfContaining := by
  refine ⟨_, _, rfl, rfl, ?_⟩
  refine ⟨_, .tail (.single ⟨.tail _ (.head _), .tail _ (.tail _ (.head _)), ?_⟩)
    ⟨.tail _ (.tail _ (.head _)), .tail _ (.head _), ?_⟩⟩
  · exact ⟨_, .head _, true, rfl⟩
  · exact ⟨_, .head _, true, rfl⟩

/-- The types that the variable of that operation uses are not free of cycles, nor are the classes
of its model. -/
theorem classes_acyclic_iff_findLoop :
    ∃ model vars fields, loopSchema.Keyed ∧ variableBindings loopSchema findLoop = .ok vars ∧
      responseBindings loopSchema findLoop = .ok fields ∧
      ClassModel.ofOperation loopSchema "crate" findLoop = .ok model ∧
      ((∀ cls, model.variablesClass = some cls ∨ model.responseClass = some cls →
          ¬cls.SelfContaining) ↔
        Acyclic loopSchema .reuse vars ∧ Acyclic loopSchema .agree fields) := by
  have hkeyed : loopSchema.Keyed := by decide
  obtain ⟨vars, hvars⟩ : ∃ vars, variableBindings loopSchema findLoop = .ok vars := ⟨_, rfl⟩
  obtain ⟨fields, hfields⟩ : ∃ fields, responseBindings loopSchema findLoop = .ok fields :=
    ⟨_, rfl⟩
  obtain ⟨model, hmodel⟩ : ∃ model,
      ClassModel.ofOperation loopSchema "crate" findLoop = .ok model := ⟨_, rfl⟩
  exact ⟨model, vars, fields, hkeyed, hvars, hfields, hmodel,
    classes_acyclic_iff hkeyed hvars hfields hmodel⟩

end ClientSdk
