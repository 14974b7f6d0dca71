import ClientSdk.Build
import ClientSdk.Event
import ClientSdk.Operation.Reading
import ClientSdk.Schema.Reading
import ClientSdk.ValidSchema

/-!
# Generation

From documents to class models: the schema is read, augmented and validated, and then the
operations of each document are read and built in order. Every completed step leaves an event,
and the first failure ends the run, so the events before a failure tell how far the run came.

## Main definitions

* `SourceText`: a document with the path that it is reported under.
* `Traced`: computations that leave events and may fail.
* `classModels`: the class models of the operations.
-/

namespace ClientSdk

/-- A document with its path. -/
structure SourceText where
  /-- The path that the document is reported under. -/
  path : String
  /-- The document. -/
  text : String
  deriving DecidableEq, Repr, Inhabited

/-- A computation that leaves events and may fail. The events remain when it fails. -/
abbrev Traced := ExceptT GenerationError (StateM (List RunEvent))

namespace Traced

/-- Leaves an event. -/
def note (event : RunEvent) : Traced Unit := modify (· ++ [event])

/-- The result of a computation with the events that it leaves, in order. -/
def trace {α : Type} (run : Traced α) : Except GenerationError α × List RunEvent :=
  run.run.run []

end Traced

/-- The schema that a document declares, augmented, with its valid form. -/
def prepareSchema (source : SourceText) : Traced (Schema × ValidSchema) := do
  let loaded ← Schema.ofText source.text
  Traced.note (.loadedSchema source.path loaded.declaredNames.length)
  let augmented ← augment loaded
  augmented.changes.forM fun change => Traced.note (.added change)
  let valid ← augmented.schema.toValid
  Traced.note .validated
  return (augmented.schema, valid)

/-- The class model of an operation. -/
def modelOf (schema : Schema) (package : String) (operation : Operation) :
    Traced ClassModel := do
  let model ← ClassModel.ofOperation schema package operation
  Traced.note (.builtModel operation.name operation.kind)
  return model

/-- The class models of the operations of a document. -/
def modelsOfDocument (schema : Schema) (valid : ValidSchema) (package : String)
    (source : SourceText) : Traced (List ClassModel) := do
  let operations ← operationsOfText valid source.text source.path
  Traced.note (.loadedOperations source.path operations.length)
  operations.mapM (modelOf schema package)

/-- The class models of the operations of all documents, in order. -/
def classModels (schema : SourceText) (operations : List SourceText) (package : String) :
    Traced (List ClassModel) := do
  let (schema, valid) ← prepareSchema schema
  return (← operations.mapM (modelsOfDocument schema valid package)).flatten

end ClientSdk
