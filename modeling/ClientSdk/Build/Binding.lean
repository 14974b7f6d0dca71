import ClientSdk.Augmentation
import ClientSdk.ClassModel
import ClientSdk.Projection

/-!
# Bindings

The constructor parameters of a top-level class, as schema types: a binding is a
declared variable or a selected field of the root, with the definition of its type and the
projection that restricts it.

## Main definitions

* `Binding`, `Binding.isExpanded`.
* `variableBindings`, `responseBindings`: the bindings of an operation.
-/

namespace ClientSdk

/-- A named value of a known type. -/
structure Binding where
  /-- The name of a variable, or the key of a selected field. -/
  name : String
  /-- The type of the value. -/
  type : TypeRef
  /-- The definition at the bottom of the type. -/
  definition : TypeDef
  /-- The fields of the definition that take part. -/
  projection : Projection
  deriving DecidableEq

namespace Binding

/-- The value is a scalar or a list of scalars. -/
def isScalar (binding : Binding) : Bool := binding.definition.isScalar

/-- The value is a single object, which flattening replaces by its fields. -/
def isExpanded (binding : Binding) : Bool := !binding.isScalar && !binding.type.isList

/-- The constructor parameter of the value. -/
def parameter (binding : Binding) : Parameter := .of binding.name binding.type

end Binding

namespace Build

/-- The binding of a declared variable of `operation`. -/
def variableBinding (schema : Schema) (operation : String) (var : Variable) :
    Except GenerationError Binding := do
  let definition ← Augment.typeNamed schema var.type.leafName (.variableOf var.name operation)
  let projection ← Projection.ofPick var definition
  return { name := var.name, type := var.type, definition, projection }

/-- The bindings of the variables of an operation, in declaration order. -/
def variableBindings (schema : Schema) (operation : Operation) :
    Except GenerationError (List Binding) :=
  operation.vars.mapM (variableBinding schema operation.name)

/-- Adds `projection` to the binding called `key`, or else the binding that `fresh` makes, at
the end. -/
def mergeBinding (key : String) (projection : Projection)
    (fresh : Except GenerationError Binding) :
    List Binding → Except GenerationError (List Binding)
  | [] => return [← fresh]
  | binding :: rest =>
    if binding.name = key then
      .ok ({ binding with projection := binding.projection.merge projection } :: rest)
    else do
      let rest ← mergeBinding key projection fresh rest
      return binding :: rest

/-- The binding of a field of the root, answered under `key`. -/
def responseBinding (schema : Schema) (root : TypeDef) (field : FieldDef) (key : String)
    (projection : Projection) : Except GenerationError Binding := do
  let definition ← Augment.typeNamed schema field.type.leafName (.field root.name field.name)
  return { name := key, type := field.type, definition, projection }

/-- Adds the binding of one selection of `operation` to `bindings`. -/
def addResponseBinding (schema : Schema) (operation : Operation) (bindings : List Binding) :
    Selection → Except GenerationError (List Binding)
  | .field name alias? selections =>
    let root := schema.root operation.kind
    match root.field? name with
    | none => .error (.unknownField root.name name)
    | some field => do
      let key := alias?.getD name
      let projection ←
        Projection.ofSelections (operation.name ++ "." ++ key) selections
      mergeBinding key projection (responseBinding schema root field key projection) bindings
  | .spread fragment =>
    .error (.unsupportedSelection (Selection.spread fragment).form operation.name)
  | .inlineFragment condition =>
    .error (.unsupportedSelection (Selection.inlineFragment condition).form operation.name)

/-- The bindings of what an operation selects: one for each response key, in the order in
which the keys are first seen. A key that is seen again adds its selections. -/
def responseBindings (schema : Schema) (operation : Operation) :
    Except GenerationError (List Binding) :=
  operation.selections.foldlM (addResponseBinding schema operation) []

end Build

end ClientSdk
