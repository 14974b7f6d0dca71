import ClientSdk.Proofs.Build.Rebuilding

/-!
# Constructors That Are Called

The arguments that rebuild flattened variables call a constructor for every object. Its name is
that of a type of objects, behind what is put in front of all of them. The class of the variables
passes on the same parameters as the helper of the model.

## Main definitions

* `Argument.CallsOnly`: the names of all constructors that an argument calls have a property.
* `Rebuilds`: what the class of the variables and the helper are made from.

## Main results

* `callsOnly_arguments`: the constructors that rebuild variables are called like types.
* `exists_rebuilds`: where the class of the variables passes on parameters.
* `secondary_of_ofOperation`: the class of the response passes on none.
-/

namespace ClientSdk

namespace Argument

/-- All constructors that the argument calls have names with the property. -/
inductive CallsOnly (P : String → Prop) : Argument → Prop
  | parameter (name source : String) (isLast : Bool) : CallsOnly P (.parameter name source isLast)
  | call {name function : String} {arguments : List Argument} {nullable isLast : Bool} :
      P function → (∀ arg ∈ arguments, CallsOnly P arg) →
      CallsOnly P (.call name function arguments nullable isLast)

variable {P : String → Prop}

/-- What all names have that are called, they have in every weaker form. -/
theorem CallsOnly.mono {Q : String → Prop} {arg : Argument} (h : arg.CallsOnly P)
    (hweaker : ∀ name, P name → Q name) : arg.CallsOnly Q := by
  induction h with
  | parameter name source isLast => exact .parameter name source isLast
  | call hfunction _ ih => exact .call (hweaker _ hfunction) ih

mutual

/-- What all names have, all that are called have. -/
theorem CallsOnly.of_forall (h : ∀ name, P name) : (arg : Argument) → arg.CallsOnly P
  | .parameter name source isLast => .parameter name source isLast
  | .call _ function args _ _ => .call (h function) (callsOnly_of_forall h args)

/-- What all names have, all that are called in a list of arguments have. -/
theorem callsOnly_of_forall (h : ∀ name, P name) :
    (args : List Argument) → ∀ arg ∈ args, arg.CallsOnly P
  | [] => fun _ hmem => absurd hmem List.not_mem_nil
  | arg :: args =>
    List.forall_mem_cons.mpr ⟨CallsOnly.of_forall h arg, callsOnly_of_forall h args⟩

end

/-- The mark of the last argument does not change what is called. -/
theorem CallsOnly.withLast {arg : Argument} (h : arg.CallsOnly P) (isLast : Bool) :
    (arg.withLast isLast).CallsOnly P := by
  cases h with
  | parameter name source _ => exact .parameter name source isLast
  | call hfunction harguments => exact .call hfunction harguments

/-- Marking the last argument does not change what is called. -/
theorem callsOnly_of_mem_markLast {args : List Argument} (h : ∀ arg ∈ args, arg.CallsOnly P) :
    ∀ arg ∈ markLast args, arg.CallsOnly P := by
  induction args using markLast.induct with
  | case1 => exact fun _ hmem => absurd hmem List.not_mem_nil
  | case2 arg =>
      rw [markLast, List.forall_mem_singleton]
      exact (h arg List.mem_cons_self).withLast true
  | case3 arg args hne ih =>
      obtain ⟨hfirst, hrest⟩ := List.forall_mem_cons.mp h
      rw [markLast]
      · exact List.forall_mem_cons.mpr ⟨hfirst.withLast false, ih hrest⟩
      · exact hne

end Argument

namespace Build

variable {schema : Schema} {P : String → Prop} {pre : String}

/-- **A rebuilt value calls constructors of types of objects.** Induction on the fuel of the
shape. -/
theorem callsOnly_rebuild
    (hP : ∀ type ∈ schema.types.values, type.isScalar = false → P (pre ++ type.name))
    (leaves : List FlatLeaf) {fuel : Nat} :
    ∀ {expanding path : List String} {name key : String} {type : TypeRef} {definition : TypeDef}
      {p : Projection} {shape : ValueShape},
      shapeOf schema fuel expanding path type definition p = .ok shape →
      schema.get? key = some definition → (rebuild leaves pre name shape).CallsOnly P := by
  induction fuel using Nat.strong_induction_on with
  | _ fuel ih =>
      intro expanding path name key type definition p shape hshape hget
      by_cases hleaf : definition.isScalar = true ∨ type.isList = true
      · rw [shapeOf_leaf hleaf] at hshape
        obtain rfl := Except.ok.inj hshape
        exact .parameter _ _ _
      · rw [not_or, Bool.not_eq_true, Bool.not_eq_true] at hleaf
        obtain ⟨fuel', shapes, rfl, -, -, rfl, hfields⟩ :=
          exists_shapes_of_shapeOf hleaf.1 hleaf.2 hshape
        refine .call (hP _ (Schema.mem_values_of_get? hget) hleaf.1)
          (Argument.callsOnly_of_mem_markLast fun arg harg => ?_)
        rw [rebuildFields_eq_map] at harg
        obtain ⟨⟨_, inner⟩, hinner, rfl⟩ := List.mem_map.mp harg
        obtain ⟨field, -, -, child, hget', hshape'⟩ := exists_left_of_forall₂ hfields hinner
        exact ih fuel' (Nat.lt_succ_self _) hshape' hget'

/-- **The arguments that rebuild variables** call constructors of types of objects, by names that
start with `pre`. -/
theorem callsOnly_arguments
    (hP : ∀ type ∈ schema.types.values, type.isScalar = false → P (pre ++ type.name))
    {operation : String} {bindings : List Binding} (hresolved : Resolved schema bindings)
    {flat : FlatVariables} (h : flattenVariables schema operation bindings = .ok flat) :
    ∀ arg ∈ flat.arguments pre, arg.CallsOnly P := by
  obtain ⟨hshapes, -, -⟩ := flattenVariables_eq_ok_iff.mp h
  refine Argument.callsOnly_of_mem_markLast fun arg harg => ?_
  rw [rebuildFields_eq_map] at harg
  obtain ⟨⟨_, shape⟩, hshape, rfl⟩ := List.mem_map.mp harg
  obtain ⟨binding, hbinding, -, hshape⟩ := exists_left_of_forall₂ hshapes hshape
  exact callsOnly_rebuild hP flat.leaves hshape (hresolved binding hbinding)

/-! ### Constructors with flattened parameters -/

variable {package : String} {operation : Operation} {model : ClassModel}

/-- Where there is no class for the variables, the helper takes nothing and passes on nothing. -/
theorem helper_of_ofOperation
    (h : ClassModel.ofOperation schema package operation = .ok model)
    (hnone : model.variablesClass = none) :
    model.helperParameters = [] ∧ model.helperArguments = [] := by
  obtain ⟨vars, fields, -, -, hvariables, -⟩ := exists_parts h
  cases hvariables with
  | none _ hparameters harguments => exact ⟨hparameters, harguments⟩
  | some _ _ _ hclass => cases hnone.symm.trans hclass

/-- The class of the response has no constructor but the primary one. -/
theorem secondary_of_ofOperation
    (h : ClassModel.ofOperation schema package operation = .ok model) {cls : ClassDecl}
    (hcls : model.responseClass = some cls) : cls.secondary = [] := by
  rw [ClassModel.ofOperation] at h
  simp only [bind_eq_ok_iff] at h
  obtain ⟨vars, -, fields, -, middle, hmiddle, hmodel⟩ := h
  have hnone : middle.responseClass = none := responseClass_of_addVariables hmiddle
  rw [addResponse] at hmodel
  split at hmodel
  · obtain rfl := Except.ok.inj hmodel
    cases hnone.symm.trans hcls
  · simp only [bind_eq_ok_iff, pure_eq_ok_iff, topClass_eq_ok_iff] at hmodel
    obtain ⟨_, ⟨nested, -, rfl⟩, rfl⟩ := hmodel
    obtain rfl := Option.some.inj hcls
    rfl

/-- What the class of the variables and the helper of a model are made from. -/
structure Rebuilds (schema : Schema) (operation : Operation) (model : ClassModel)
    (cls : ClassDecl) (bindings : List Binding) (visited : List QueuedType)
    (flat : FlatVariables) : Prop where
  /-- The bindings are those of the variables. -/
  bound : variableBindings schema operation = .ok bindings
  /-- The types are found from the bindings. -/
  discovered : Discovered schema .reuse bindings visited
  /-- The bindings are flattened. -/
  flattened : flattenVariables schema operation.name bindings = .ok flat
  /-- The class has a parameter for each binding. -/
  parameters : cls.parameters = Parameter.markLast (bindings.map Binding.parameter)
  /-- Its nested classes are those of the types. -/
  nested : cls.nested = visited.map QueuedType.decl
  /-- The helper takes the flattened parameters. -/
  helperParameters : model.helperParameters = flat.parameters
  /-- It rebuilds the variables with constructors in the module of the operation. -/
  helperArguments : model.helperArguments =
    flat.arguments (operation.name ++ "." ++ nameOfVariables operation.name ++ ".")
  /-- The other constructor of the class, if there is one, rebuilds them with those in the class. -/
  secondary : ∀ constructor ∈ cls.secondary, constructor =
    { parameters := flat.parameters, arguments := flat.arguments "" }

/-- The bindings of variables that are rebuilt have the types that their references name. -/
theorem Rebuilds.resolved {cls : ClassDecl} {bindings : List Binding} {visited : List QueuedType}
    {flat : FlatVariables} (h : Rebuilds schema operation model cls bindings visited flat) :
    Resolved schema bindings :=
  resolved_of_variableBindings h.bound

/-- **What the variables are rebuilt from.** The helper of a model takes the parameters of the
flattened variables, and so does the other constructor of the class of the variables, if there is
one. -/
theorem exists_rebuilds (h : ClassModel.ofOperation schema package operation = .ok model)
    {cls : ClassDecl} (hcls : model.variablesClass = some cls) :
    ∃ bindings visited flat, Rebuilds schema operation model cls bindings visited flat := by
  rw [ClassModel.ofOperation] at h
  simp only [bind_eq_ok_iff] at h
  obtain ⟨vars, hvars, fields, -, middle, hmiddle, hmodel⟩ := h
  have hnone : middle.responseClass = none := responseClass_of_addVariables hmiddle
  rw [(hasResponse_of_addResponse hnone hmodel).2] at hcls ⊢
  refine ⟨vars, ?_⟩
  rw [addVariables] at hmiddle
  split at hmiddle
  · obtain rfl := Except.ok.inj hmiddle
    cases hcls
  · simp only [bind_eq_ok_iff, pure_eq_ok_iff, topClass_eq_ok_iff] at hmiddle
    obtain ⟨_, ⟨nested, hnested, rfl⟩, flat, hflat, rfl⟩ := hmiddle
    obtain rfl := Option.some.inj hcls
    obtain ⟨visited, hdiscovered, hvisited⟩ := exists_discovered hnested
    refine ⟨visited, flat, hvars, hdiscovered, hflat, rfl, hvisited, rfl, rfl, ?_⟩
    intro constructor hconstructor
    dsimp only at hconstructor
    split at hconstructor
    · exact List.mem_singleton.mp hconstructor
    · cases hconstructor

end Build

end ClientSdk
