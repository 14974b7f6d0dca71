import ClientSdk.Build.Flatten

/-!
# Building Class Models

From an operation and the augmented schema to the model of its classes: the class of its
variables with a constructor that takes flattened parameters, the class of its response, and
the helper that rebuilds the variables.

## Main definitions

* `ClassModel.ofOperation`: the class model of an operation.
-/

namespace ClientSdk

namespace Build

/-- A top-level class with one parameter for each binding. -/
def topClass (schema : Schema) (operation name : String) (bindings : List Binding)
    (policy : ListPolicy) : Except GenerationError ClassDecl := do
  let nested ← innerClasses schema operation bindings policy
  return {
    name := name
    parameters := Parameter.markLast (bindings.map Binding.parameter)
    nested := nested }

/-- Adds to a model the class of the variables and what flattening them gives. Without variables
the model stays as it is. -/
def addVariables (schema : Schema) (model : ClassModel) (bindings : List Binding) :
    Except GenerationError ClassModel :=
  if bindings.isEmpty then .ok model
  else do
    let operation := model.operationName
    let name := nameOfVariables operation
    let cls ← topClass schema operation name bindings .reuse
    let flattened ← flattenVariables schema operation bindings
    let secondary :=
      if bindings.any (·.isExpanded) then
        [{ parameters := flattened.parameters, arguments := flattened.arguments "" }]
      else []
    return { model with
      variablesClass := some { cls with secondary := secondary }
      helperParameters := flattened.parameters
      helperArguments := flattened.arguments (operation ++ "." ++ name ++ ".") }

/-- Adds to a model the class of the response. Where nothing is selected the model stays as it
is. -/
def addResponse (schema : Schema) (model : ClassModel) (bindings : List Binding) :
    Except GenerationError ClassModel :=
  if bindings.isEmpty then .ok model
  else do
    let operation := model.operationName
    let cls ← topClass schema operation (nameOfResponse operation) bindings .agree
    return { model with responseClass := some cls }

end Build

open Build in
/-- The class model of an operation whose code goes into `package`. -/
def ClassModel.ofOperation (schema : Schema) (package : String) (operation : Operation) :
    Except GenerationError ClassModel := do
  let vars ← variableBindings schema operation
  let fields ← responseBindings schema operation
  let model : ClassModel :=
    { package, operationName := operation.name, operationKind := operation.kind }
  let model ← addVariables schema model vars
  addResponse schema model fields

end ClientSdk
