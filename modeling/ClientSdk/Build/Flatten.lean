import ClientSdk.Build.Inner

/-!
# Flattened Variables

Flattening replaces every single object by its fields, down to scalars and lists. What
remains are the leaves, in depth-first order: the parameters of the helper constructors. The
shape of a value keeps how the leaves fit together, so that the objects can be rebuilt.

## Main definitions

* `ValueShape`: a value as a tree over its leaves.
* `shapeOf`: the shape of a value.
* `leafParameterName`: a leaf is called after its field, or after its whole path where another
  leaf has the same field name.
* `FlatVariables`: the parameters and the arguments that rebuild the values.
-/

namespace ClientSdk

/-- A scalar or a list at the end of a chain of fields. -/
structure FlatLeaf where
  /-- The names from the variable down to the leaf. -/
  path : List String
  /-- The type of the leaf. -/
  type : TypeRef
  deriving DecidableEq, Repr

/-- How the leaves of a value fit together. -/
inductive ValueShape where
  /-- The value is a leaf. -/
  | leaf (leaf : FlatLeaf)
  /-- The value is an object of the type `type` with the given fields; `nullable` when null may
  stand in its place. -/
  | nested (type : String) (nullable : Bool) (fields : List (String × ValueShape))

namespace ValueShape

mutual

/-- The leaves of a shape, depth first. -/
def leaves : ValueShape → List FlatLeaf
  | leaf l => [l]
  | nested _ _ fields => leavesOfFields fields

/-- The leaves of a list of fields, depth first. -/
def leavesOfFields : List (String × ValueShape) → List FlatLeaf
  | [] => []
  | (_, shape) :: rest => shape.leaves ++ leavesOfFields rest

end

end ValueShape

namespace Build

/-- The shape of a value of type `type` at `path`. `expanding` lists the types whose fields are
being expanded, outermost first; since they are distinct, `fuel` never runs out when it starts
above the number of types. -/
def shapeOf (schema : Schema) :
    Nat → List String → List String → TypeRef → TypeDef → Projection →
      Except GenerationError ValueShape
  | fuel, expanding, path, type, definition, projection =>
    if definition.isScalar || type.isList then .ok (.leaf ⟨path, type⟩)
    else
      match cycleAt? expanding definition.name with
      | some names => .error (.cyclicType names)
      | none =>
        match fuel with
        | 0 => .error (.cyclicType (expanding ++ [definition.name]))
        | fuel + 1 => do
          let fields ← projection.fieldsOf definition
          let shapes ← fields.mapM fun field => do
            let child ← Augment.typeNamed schema field.type.leafName
              (.field definition.name field.name)
            let shape ← shapeOf schema fuel (expanding ++ [definition.name])
              (path ++ [field.name]) field.type child (projection.child field.name)
            return (field.name, shape)
          return .nested definition.name type.nullable shapes

/-- The shape of a binding. -/
def shapeOfBinding (schema : Schema) (binding : Binding) :
    Except GenerationError (String × ValueShape) := do
  let shape ← shapeOf schema (schema.types.entries.length + 1) [] [binding.name] binding.type
    binding.definition binding.projection
  return (binding.name, shape)

/-! ### Names of leaves -/

/-- The last name on the path of a leaf. -/
def leafFieldName (leaf : FlatLeaf) : String := leaf.path.getLastD ""

/-- The name of the parameter for `leaf` among `leaves`: its field name, unless another leaf has
the same one; then its path, joined by underscores. -/
def leafParameterName (leaves : List FlatLeaf) (leaf : FlatLeaf) : String :=
  if (leaves.map leafFieldName).count (leafFieldName leaf) > 1 then "_".intercalate leaf.path
  else leafFieldName leaf

/-- The first name of a list that stands there before, or in `seen`. -/
def firstRepeated? (seen : List String) : List String → Option String
  | [] => none
  | name :: names => if name ∈ seen then some name else firstRepeated? (name :: seen) names

/-- The parameters for `leaves`, which must have distinct names. -/
def leafParameters (operation : String) (leaves : List FlatLeaf) :
    Except GenerationError (List Parameter) :=
  match firstRepeated? [] (leaves.map (leafParameterName leaves)) with
  | some name => .error (.duplicateParameter operation name)
  | none =>
    .ok (Parameter.markLast (leaves.map fun leaf =>
      .of (leafParameterName leaves leaf) leaf.type))

/-! ### Rebuilding -/

mutual

/-- The argument that passes a value of the given shape to the parameter `name`. Objects are
made by the constructor called `pre` and the name of their type. -/
def rebuild (leaves : List FlatLeaf) (pre name : String) : ValueShape → Argument
  | .leaf leaf => .parameter name (leafParameterName leaves leaf) false
  | .nested type nullable fields =>
    .call name (pre ++ type) (Argument.markLast (rebuildFields leaves pre fields)) nullable false

/-- The arguments that pass a list of fields. -/
def rebuildFields (leaves : List FlatLeaf) (pre : String) :
    List (String × ValueShape) → List Argument
  | [] => []
  | (name, shape) :: rest => rebuild leaves pre name shape :: rebuildFields leaves pre rest

end

end Build

/-- Variables after flattening. -/
structure FlatVariables where
  /-- The parameters for the leaves, depth first. -/
  parameters : List Parameter
  /-- The shapes of the variables. -/
  shapes : List (String × ValueShape)

namespace FlatVariables

/-- The leaves of all variables, in order. -/
def leaves (flat : FlatVariables) : List FlatLeaf := ValueShape.leavesOfFields flat.shapes

/-- The arguments that rebuild the variables for their primary constructor, where the classes
nested in it are reached by names that start with `pre`. -/
def arguments (flat : FlatVariables) (pre : String) : List Argument :=
  Argument.markLast (Build.rebuildFields flat.leaves pre flat.shapes)

end FlatVariables

/-- Flattens the bindings of variables. -/
def Build.flattenVariables (schema : Schema) (operation : String) (bindings : List Binding) :
    Except GenerationError FlatVariables := do
  let shapes ← bindings.mapM (shapeOfBinding schema)
  let parameters ← leafParameters operation (ValueShape.leavesOfFields shapes)
  return { parameters, shapes }

end ClientSdk
