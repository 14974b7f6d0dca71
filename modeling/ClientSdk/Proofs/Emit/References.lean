import ClientSdk.Proofs.Emit.Naming

/-!
# Types That the Code of an Operation Refers To

The code of an operation spells types in three places: where it declares classes, where a parameter
has a type, and where a constructor is called. Types of the second and third kind are found in
different ways: along the fields of the classes, and by flattening. But whatever holds objects has
been reached by the search for nested classes, so the code spells no type of objects for which it
declares no class.

## Main definitions

* `Parameter.LeadsInto`: a parameter holds scalars, or objects of one of some classes.

## Main results

* `leadsInto_of_mem_topClasses`: the parameters of the classes of a model.
* `LeafAt.type_cases`, `Rebuilds.leadsInto`: flattened parameters.
* `callsOnly_nested_of_fits`, `Rebuilds.callsOnly`: the constructors that are called.
-/

namespace ClientSdk

/-- At the bottom of the type of the parameter stands a scalar, or a type with one of the
classes. -/
def Parameter.LeadsInto (schema : Schema) (classes : List ClassDecl) (param : Parameter) : Prop :=
  ∃ type definition, param.type = .ofRef type ∧ schema.get? type.leafName = some definition ∧
    (definition.isScalar = false → ∃ cls ∈ classes, cls.name = definition.name)

namespace Build

variable {schema : Schema} {bindings : List Binding} {visited : List QueuedType}
  {policy : ListPolicy}

/-! ### Parameters of classes -/

/-- Marking the last parameter keeps types. -/
theorem leadsInto_of_mem_markLast {classes : List ClassDecl} {params : List Parameter}
    (h : ∀ param ∈ params, param.LeadsInto schema classes) :
    ∀ param ∈ Parameter.markLast params, param.LeadsInto schema classes := by
  intro marked hmarked
  obtain ⟨param, hparam, -, htype⟩ := Parameter.exists_mem_of_mem_markLast hmarked
  rw [Parameter.LeadsInto, ← htype]
  exact h param hparam

/-- A type that is visited under some name has a class with that name. -/
theorem exists_decl_of_mem {name : String} (h : ∃ other ∈ visited, other.name = name) :
    ∃ cls ∈ visited.map QueuedType.decl, cls.name = name := by
  obtain ⟨other, hother, rfl⟩ := h
  exact ⟨other.decl, List.mem_map_of_mem hother, rfl⟩

section Discovered

variable (hdiscovered : Discovered schema policy bindings visited)

include hdiscovered

/-- **A binding leads to a scalar or to a visited type.** -/
theorem Discovered.leadsInto_binding (hresolved : Resolved schema bindings) {binding : Binding}
    (hbinding : binding ∈ bindings) {param : Parameter} (htype : param.type = .ofRef binding.type) :
    param.LeadsInto schema (visited.map QueuedType.decl) := by
  refine ⟨binding.type, binding.definition, htype, hresolved binding hbinding, fun hscalar => ?_⟩
  obtain ⟨other, hother, hname, -⟩ := hdiscovered.rooted binding hbinding hscalar
  exact exists_decl_of_mem ⟨other, hother, hname⟩

/-- **A field of a visited type leads to a scalar or to a visited type.** -/
theorem Discovered.leadsInto_field {queued : QueuedType} (hqueued : queued ∈ visited)
    {field : FieldDef} (hfield : field ∈ queued.fields) {param : Parameter}
    (htype : param.type = .ofRef field.type) :
    param.LeadsInto schema (visited.map QueuedType.decl) := by
  obtain ⟨child, hget, hled⟩ := (hdiscovered.followed queued hqueued).2 field hfield
  refine ⟨field.type, child, htype, hget, fun hscalar => exists_decl_of_mem ?_⟩
  rcases (hled hscalar).1 with ⟨other, hother, hname, -⟩ | ⟨-, -, hother⟩
  · exact ⟨other, hother, hname⟩
  · exact hother

end Discovered

/-- **The parameters of the classes of a model**, nested ones included, lead to scalars or to nested
classes of the same class. -/
theorem leadsInto_of_mem_topClasses {package : String} {operation : Operation}
    {model : ClassModel} (h : ClassModel.ofOperation schema package operation = .ok model)
    {cls : ClassDecl} (hcls : cls ∈ model.topClasses) :
    ∀ decl ∈ cls :: cls.nested, ∀ param ∈ decl.parameters, param.LeadsInto schema cls.nested := by
  obtain ⟨policy, bindings, visited, hresolved, -, hparameters, hdiscovered, hnested⟩ :=
    exists_bindings_of_mem h hcls
  rw [hnested, List.forall_mem_cons, hparameters, List.forall_mem_map]
  constructor
  · refine leadsInto_of_mem_markLast (List.forall_mem_map.mpr fun binding hbinding => ?_)
    exact hdiscovered.leadsInto_binding hresolved hbinding rfl
  · intro queued hqueued
    refine leadsInto_of_mem_markLast (List.forall_mem_map.mpr fun field hfield => ?_)
    exact hdiscovered.leadsInto_field hqueued hfield rfl

/-! ### Flattened parameters -/

section Flat

variable (hkeyed : schema.Keyed) (hresolved : Resolved schema bindings)
  (hdiscovered : Discovered schema .reuse bindings visited)
  (hdistinct : ∀ queued ∈ visited, (queued.fields.map (·.name)).Nodup)

include hkeyed hresolved hdiscovered hdistinct

/-- **A leaf has the type of its value, or of a field of a visited type.** Induction on the position
of the leaf: on the way there, each object is one that the search has visited. -/
theorem LeafAt.type_cases {path : List String} {type : TypeRef} {definition : TypeDef}
    {p : Projection} {position : List Nat} {leaf : FlatLeaf}
    (h : LeafAt schema path type definition p position leaf)
    (hplaced : definition.isScalar = false → type.isList = false →
      Placed schema visited definition p) :
    leaf.type = type ∨ ∃ queued ∈ visited, ∃ field ∈ queued.fields, leaf.type = field.type := by
  induction h with
  | value _ => exact Or.inl rfl
  | @field path type definition child p i field position leaf hscalar hlist hfield hchild _ ih =>
      have hplace := hplaced hscalar hlist
      obtain ⟨hdeclared, hincludes⟩ := List.mem_filter.mp (List.mem_of_getElem? hfield)
      rcases ih fun hscalar' hlist' => hplace.field hkeyed hresolved hdiscovered hdistinct
        hdeclared hincludes hchild hscalar' hlist' with htype | hdeeper
      · obtain ⟨queued, hqueued, rfl, hprojection⟩ := hplace
        refine Or.inr ⟨queued, hqueued, field, ?_, htype⟩
        rw [QueuedType.fields_eq hprojection]
        exact List.mem_of_getElem? hfield
      · exact Or.inr hdeeper

/-- **Flattened parameters lead to scalars or to visited types.** -/
theorem leadsInto_flat {operation : String} {flat : FlatVariables}
    (hflat : flattenVariables schema operation bindings = .ok flat) :
    ∀ param ∈ flat.parameters, param.LeadsInto schema (visited.map QueuedType.decl) := by
  rw [(flattenVariables_eq_ok_iff.mp hflat).2.2]
  refine leadsInto_of_mem_markLast (List.forall_mem_map.mpr fun leaf hleaf => ?_)
  obtain ⟨position, i, below, binding, hbinding, -, hat⟩ := exists_isLeaf hflat hleaf
  have hmem := List.mem_of_getElem? hbinding
  have hcases := hat.type_cases hkeyed hresolved hdiscovered hdistinct fun hscalar _ =>
    (hdiscovered.rooted binding hmem hscalar).exists_definition_eq hkeyed hresolved
      hdiscovered.reached (hresolved binding hmem)
  rcases hcases with htype | ⟨queued, hqueued, field, hfield, htype⟩
  · exact hdiscovered.leadsInto_binding hresolved hmem (congrArg MemberType.ofRef htype)
  · exact hdiscovered.leadsInto_field hqueued hfield (congrArg MemberType.ofRef htype)

end Flat

/-! ### Constructors that are called -/

mutual

/-- **A well-typed argument calls constructors of nested classes of the owner.** -/
theorem callsOnly_nested_of_fits {pre : String} {owner : ClassDecl} {helpers : List Parameter} :
    (arg : Argument) → ∀ {param : Parameter}, Fits pre owner helpers arg param →
      arg.CallsOnly fun function => ∃ inner ∈ owner.nested, function = pre ++ inner.name
  | .parameter name source isLast, _, _ => .parameter name source isLast
  | .call _ _ arguments _ _, _, .call _ hinner _ hargs =>
    .call ⟨_, List.mem_of_find?_eq_some hinner, rfl⟩
      (callsOnly_nested_of_forall₂_fits arguments hargs)

/-- Well-typed arguments call constructors of nested classes of the owner. -/
theorem callsOnly_nested_of_forall₂_fits {pre : String} {owner : ClassDecl}
    {helpers : List Parameter} :
    (args : List Argument) → ∀ {params : List Parameter},
      List.Forall₂ (Fits pre owner helpers) args params → ∀ arg ∈ args,
        arg.CallsOnly fun function => ∃ inner ∈ owner.nested, function = pre ++ inner.name
  | [], _, .nil => fun _ hmem => absurd hmem List.not_mem_nil
  | arg :: args, _, .cons hfits hrest =>
    List.forall_mem_cons.mpr ⟨callsOnly_nested_of_fits arg hfits,
      callsOnly_nested_of_forall₂_fits args hrest⟩

end

/-! ### Functions that rebuild variables -/

section Rebuilds

variable {operation : Operation} {model : ClassModel} {cls : ClassDecl} {flat : FlatVariables}
  (h : Rebuilds schema operation model cls bindings visited flat)
  (hdistinct : ∀ type ∈ schema.types.values, type.isScalar = false → type.DistinctFields)

include h hdistinct

/-- The fields of visited types that take part are distinct. -/
theorem Rebuilds.nodup_fields :
    ∀ queued ∈ visited, (queued.fields.map (·.name)).Nodup := by
  intro queued hqueued
  have hreached := h.discovered.reached queued hqueued
  obtain ⟨key, hget⟩ := hreached.exists_get? h.resolved
  exact (hdistinct _ (Schema.mem_values_of_get? hget) hreached.isScalar_eq_false).sublist
    (List.filter_sublist.map _)

/-- What is rebuilt is made from scalars and objects of nested classes. -/
theorem Rebuilds.leadsInto (hkeyed : schema.Keyed) :
    ∀ param ∈ flat.parameters, param.LeadsInto schema cls.nested := by
  rw [h.nested]
  exact leadsInto_flat hkeyed h.resolved h.discovered (h.nodup_fields hdistinct) h.flattened

/-- What is rebuilt is made by constructors of nested classes. -/
theorem Rebuilds.callsOnly (hkeyed : schema.Keyed) (hplain : PlainNames schema) (pre : String) :
    ∀ arg ∈ flat.arguments pre,
      arg.CallsOnly fun function => ∃ inner ∈ cls.nested, function = pre ++ inner.name :=
  callsOnly_nested_of_forall₂_fits _ (fits_arguments hkeyed h.resolved h.discovered
    (h.nodup_fields hdistinct) hplain h.flattened h.nested pre)

end Rebuilds

end Build

end ClientSdk
