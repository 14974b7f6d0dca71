import ClientSdk.Build.Flatten
import ClientSdk.Proofs.Build.Bindings

/-!
# Shapes and Leaves

What flattening makes of variables. The shape of a value is a leaf where the value is a scalar
or a list, and else has one shape for each field that takes part. The leaves become parameters
with distinct names.

## Main results

* `shapeOf_leaf`, `exists_shapes_of_shapeOf`: the shape of a value, level by level.
* `flattenVariables_eq_ok_iff`: flattening gives a shape for each binding and a parameter for
  each leaf.
* `exists_parameter_of_leaf`: the parameter of a leaf has its type.
-/

namespace ClientSdk

/-! ### Leaves -/

/-- The leaves of fields are those of their shapes, in order. -/
theorem ValueShape.leavesOfFields_eq_flatMap (fields : List (String × ValueShape)) :
    leavesOfFields fields = fields.flatMap fun field => field.2.leaves := by
  induction fields with
  | nil => rw [leavesOfFields, List.flatMap_nil]
  | cons field rest ih => rw [leavesOfFields, List.flatMap_cons, ih]

/-- The leaves of a field are leaves of all the fields. -/
theorem ValueShape.leaves_subset {fields : List (String × ValueShape)}
    {field : String × ValueShape} (h : field ∈ fields) :
    field.2.leaves ⊆ leavesOfFields fields := by
  intro leaf hleaf
  rw [leavesOfFields_eq_flatMap, List.mem_flatMap]
  exact ⟨field, h, hleaf⟩

namespace Build

variable {schema : Schema}

/-! ### Shapes -/

/-- The value of a scalar type or of a list type is a leaf. -/
theorem shapeOf_leaf {fuel : Nat} {expanding path : List String} {type : TypeRef}
    {definition : TypeDef} {p : Projection}
    (h : definition.isScalar = true ∨ type.isList = true) :
    shapeOf schema fuel expanding path type definition p = .ok (.leaf ⟨path, type⟩) := by
  have hleaf : (definition.isScalar || type.isList) = true := by
    rw [Bool.or_eq_true]
    exact h
  rw [shapeOf.eq_def]
  exact if_pos hleaf

/-- The shape of a field of a value: the name of the field with the shape of its value. -/
def IsShapeOfField (schema : Schema) (fuel : Nat) (expanding path : List String)
    (p : Projection) (field : FieldDef) (shape : String × ValueShape) : Prop :=
  shape.1 = field.name ∧ ∃ child, schema.get? field.type.leafName = some child ∧
    shapeOf schema fuel expanding (path ++ [field.name]) field.type child
      (p.child field.name) = .ok shape.2

/-- **The shape of a single object** has the shapes of the fields that take part. -/
theorem exists_shapes_of_shapeOf {fuel : Nat} {expanding path : List String} {type : TypeRef}
    {definition : TypeDef} {p : Projection} {shape : ValueShape}
    (hscalar : definition.isScalar = false) (hlist : type.isList = false)
    (h : shapeOf schema fuel expanding path type definition p = .ok shape) :
    ∃ fuel' shapes, fuel = fuel' + 1 ∧ definition.name ∉ expanding ∧
      p.unknownField? definition = none ∧
      shape = .nested definition.name type.nullable shapes ∧
      List.Forall₂ (IsShapeOfField schema fuel' (expanding ++ [definition.name]) path p)
        (definition.fields.filter fun field => p.includes field.name) shapes := by
  have hleaf : (definition.isScalar || type.isList) = false := by rw [hscalar, hlist]; rfl
  rw [shapeOf.eq_def] at h
  dsimp only at h
  rw [hleaf, if_neg Bool.false_ne_true] at h
  cases hcycle : cycleAt? expanding definition.name with
  | some names =>
      rw [hcycle] at h
      cases h
  | none =>
      have hfresh : definition.name ∉ expanding := by
        intro hmem
        rw [cycleAt?, if_pos hmem] at hcycle
        cases hcycle
      rw [hcycle] at h
      cases fuel with
      | zero => cases h
      | succ fuel =>
          simp only [bind_eq_ok_iff, pure_eq_ok_iff, Projection.fieldsOf_eq_ok_iff,
            mapM_eq_ok_iff, Augment.typeNamed_eq_ok_iff] at h
          obtain ⟨fields, ⟨hunknown, rfl⟩, shapes, hshapes, rfl⟩ := h
          refine ⟨fuel, shapes, rfl, hfresh, hunknown, rfl, hshapes.imp ?_⟩
          rintro field shape ⟨child, hget, inner, hinner, rfl⟩
          exact ⟨rfl, child, hget, hinner⟩

/-- The shape of a binding has the name of the binding. It starts with no type expanded, and with
fuel for all types. -/
theorem shapeOfBinding_eq_ok_iff {binding : Binding} {shape : String × ValueShape} :
    shapeOfBinding schema binding = .ok shape ↔ shape.1 = binding.name ∧
      shapeOf schema (schema.types.entries.length + 1) [] [binding.name] binding.type
        binding.definition binding.projection = .ok shape.2 := by
  obtain ⟨name, shape⟩ := shape
  simp only [shapeOfBinding, bind_eq_ok_iff, pure_eq_ok_iff, Prod.mk.injEq]
  constructor
  · rintro ⟨shape, hshape, rfl, rfl⟩
    exact ⟨rfl, hshape⟩
  · rintro ⟨rfl, hshape⟩
    exact ⟨shape, hshape, rfl, rfl⟩

/-! ### Parameters -/

/-- A list without a repeated name, none of which was seen before, has distinct names. -/
theorem firstRepeated?_eq_none_iff {seen names : List String} :
    firstRepeated? seen names = none ↔ names.Nodup ∧ ∀ name ∈ names, name ∉ seen := by
  induction names generalizing seen with
  | nil => simp [firstRepeated?]
  | cons name names ih =>
      rw [firstRepeated?]
      by_cases hname : name ∈ seen
      · rw [if_pos hname]
        simp [hname]
      · rw [if_neg hname, ih, nodup_cons_and_notMem_iff, and_iff_right hname]

/-- Leaves have parameters when their names are distinct: one for each leaf, in order. -/
theorem leafParameters_eq_ok_iff {operation : String} {leaves : List FlatLeaf}
    {params : List Parameter} :
    leafParameters operation leaves = .ok params ↔
      (leaves.map (leafParameterName leaves)).Nodup ∧
        params = Parameter.markLast (leaves.map fun leaf =>
          .of (leafParameterName leaves leaf) leaf.type) := by
  have hiff := @firstRepeated?_eq_none_iff [] (leaves.map (leafParameterName leaves))
  simp only [List.not_mem_nil, not_false_eq_true, implies_true, and_true] at hiff
  rw [leafParameters, ← hiff]
  cases firstRepeated? [] (leaves.map (leafParameterName leaves)) with
  | none => simp [eq_comm]
  | some name => simp

/-- The parameter of a leaf has the type of the leaf. -/
theorem exists_parameter_of_leaf {leaves : List FlatLeaf} {leaf : FlatLeaf}
    (h : leaf ∈ leaves) :
    ∃ param ∈ Parameter.markLast (leaves.map fun leaf =>
        .of (leafParameterName leaves leaf) leaf.type),
      param.name = leafParameterName leaves leaf ∧ param.type = .ofRef leaf.type :=
  Parameter.exists_mem_markLast
    (List.mem_map_of_mem (f := fun leaf => Parameter.of _ leaf.type) h)

/-- **Flattening** gives the shape of each binding, and a parameter for each leaf. -/
theorem flattenVariables_eq_ok_iff {operation : String} {bindings : List Binding}
    {flat : FlatVariables} :
    flattenVariables schema operation bindings = .ok flat ↔
      List.Forall₂ (fun binding shape => shape.1 = binding.name ∧
        shapeOf schema (schema.types.entries.length + 1) [] [binding.name] binding.type
          binding.definition binding.projection = .ok shape.2) bindings flat.shapes ∧
      (flat.leaves.map (leafParameterName flat.leaves)).Nodup ∧
      flat.parameters = Parameter.markLast (flat.leaves.map fun leaf =>
        .of (leafParameterName flat.leaves leaf) leaf.type) := by
  simp only [flattenVariables, bind_eq_ok_iff, pure_eq_ok_iff, mapM_eq_ok_iff,
    shapeOfBinding_eq_ok_iff, leafParameters_eq_ok_iff]
  constructor
  · rintro ⟨shapes, hshapes, params, ⟨hnodup, hparams⟩, rfl⟩
    exact ⟨hshapes, hnodup, hparams⟩
  · rintro ⟨hshapes, hnodup, hparams⟩
    exact ⟨flat.shapes, hshapes, flat.parameters, ⟨hnodup, hparams⟩, rfl⟩

end Build

end ClientSdk
