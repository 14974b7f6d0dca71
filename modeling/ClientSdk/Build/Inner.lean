import ClientSdk.Build.Binding

/-!
# Nested Classes

The classes nested in a top-level class, one for every type of objects that its parameters
reach. They are found breadth first. The projection with which a type is reached first is that of
its class, and reaching it again must agree. Each reached type carries the chain of single-valued
fields that led to it, so a type that would contain itself is found out.

## Main definitions

* `ListPolicy`: what happens when a list leads to a type that has a class.
* `Discovery`: the types reached so far and the types whose fields are still to be followed.
* `innerClasses`: the classes, in the order of their discovery.
-/

namespace ClientSdk

/-- What a list field may do whose elements have a type that has a class already. -/
inductive ListPolicy where
  /-- The list holds that class, whatever its projection. -/
  | reuse
  /-- The list must project the same fields as that class. -/
  | agree
  deriving DecidableEq, Repr

namespace Build

/-- A type that has been reached and whose fields have not been followed yet. -/
structure QueuedType where
  /-- The type. -/
  definition : TypeDef
  /-- The fields that take part, in normal form. -/
  projection : Projection
  /-- The types on the chain of single-valued fields that led here, this one last. -/
  path : List String

/-- The state of the search for nested classes. -/
structure Discovery where
  /-- The names of the reached types with their projections, first one first. -/
  reached : List (String × Projection)
  /-- The reached types still to be followed, next one first. -/
  queue : List QueuedType

/-- Reaches a type with a projection and puts it in the queue. A type that is reached already
must have the same projection, and is not queued again. -/
def reach (operation : String) (state : Discovery) (queued : QueuedType) :
    Except GenerationError Discovery :=
  match state.reached.lookup queued.definition.name with
  | some projection =>
    if projection = queued.projection then .ok state
    else .error (.conflictingProjection operation queued.definition.name)
  | none =>
    .ok {
      reached := state.reached ++ [(queued.definition.name, queued.projection)]
      queue := state.queue ++ [queued] }

/-- Reaches the types of the bindings that hold objects. -/
def reachRoots (schema : Schema) (operation : String) (bindings : List Binding) :
    Except GenerationError Discovery :=
  (bindings.filter fun binding => !binding.isScalar).foldlM
    (fun state binding =>
      reach operation state {
        definition := binding.definition
        projection := binding.projection.normalize schema binding.definition
        path := [binding.definition.name] })
    { reached := [], queue := [] }

/-- The end of `path` from the first occurrence of `name`, with `name` again at its end: the
cycle that a single-valued field to `name` closes. None if `name` is not on the path. -/
def cycleAt? (path : List String) (name : String) : Option (List String) :=
  if name ∈ path then some (path.dropWhile (· != name) ++ [name]) else none

/-- Follows one field of a reached type. -/
def followField (schema : Schema) (operation : String) (policy : ListPolicy)
    (queued : QueuedType) (state : Discovery) (field : FieldDef) :
    Except GenerationError Discovery := do
  let child ← Augment.typeNamed schema field.type.leafName
    (.field queued.definition.name field.name)
  let projection := queued.projection.child field.name
  if child.isScalar then
    .ok state
  else if field.type.isList then
    if policy = .reuse ∧ (state.reached.lookup child.name).isSome then .ok state
    else reach operation state { definition := child, projection, path := [child.name] }
  else
    match cycleAt? queued.path child.name with
    | some names => .error (.cyclicType names)
    | none =>
      reach operation state
        { definition := child, projection, path := queued.path ++ [child.name] }

/-- The class of a type with the given fields. -/
def classOf (definition : TypeDef) (fields : List FieldDef) : ClassDecl where
  name := definition.name
  parameters := Parameter.markLast (fields.map fun field => .of field.name field.type)

/-- Follows at most `fuel` types of the queue and gives their classes. -/
def followQueue (schema : Schema) (operation : String) (policy : ListPolicy) :
    Nat → Discovery → Except GenerationError (List ClassDecl)
  | 0, _ => .ok []
  | fuel + 1, state =>
    match state.queue with
    | [] => .ok []
    | queued :: queue => do
      let fields ← queued.projection.fieldsOf queued.definition
      let state ← fields.foldlM (followField schema operation policy queued)
        { state with queue := queue }
      let classes ← followQueue schema operation policy fuel state
      return classOf queued.definition fields :: classes

/-- The nested classes that the bindings call for. Every type in the queue is a type of a
binding or of the schema and is queued once, which bounds the number of types to follow. -/
def innerClasses (schema : Schema) (operation : String) (bindings : List Binding)
    (policy : ListPolicy) : Except GenerationError (List ClassDecl) := do
  let state ← reachRoots schema operation bindings
  followQueue schema operation policy (bindings.length + schema.types.entries.length) state

end Build

end ClientSdk
