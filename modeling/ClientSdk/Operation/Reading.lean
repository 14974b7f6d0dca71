import ClientSdk.Document.Parser
import ClientSdk.Operation
import ClientSdk.Validation.Operations

/-!
# Reading Operations

The operations of a document that is valid against a schema. Each of them needs a name, and there
is no generated code for subscriptions. Arguments, default values and directives have no place in
an operation and are left out, except for the fields that `@pick` lists on a variable.

## Main definitions

* `operationsOfText`: the operations of a text.
-/

namespace ClientSdk

mutual

/-- A selection without arguments and directives. -/
def SelectionDecl.toSelection : SelectionDecl → Selection
  | .field alias? name _ _ selections => .field name alias? (SelectionDecl.toSelections selections)
  | .spread fragment _ => .spread fragment
  | .inlineFragment condition _ _ => .inlineFragment condition

/-- Selections without arguments and directives. -/
def SelectionDecl.toSelections : List SelectionDecl → List Selection
  | [] => []
  | selection :: selections => selection.toSelection :: SelectionDecl.toSelections selections

end

/-- The fields that a `@pick` directive lists. One text stands for a list of one. -/
def Directive.pickList (directive : Directive) : List String :=
  match directive.argument? "fields" with
  | some (.list items) =>
    items.filterMap fun
      | .string text => some text
      | _ => none
  | some (.string text) => [text]
  | _ => []

/-- A variable with the fields that are picked. -/
def VariableDecl.toVariable (declaration : VariableDecl) : Variable where
  name := declaration.name
  type := declaration.type
  pick := (declaration.directives.find? (·.name == "pick")).map (·.pickList)

/-- An operation of a document. -/
def OperationDecl.toOperation (declaration : OperationDecl) : Except GenerationError Operation :=
  let name := declaration.name.getD ""
  let ofKind (kind : OperationKind) : Operation :=
    { name, kind
      vars := declaration.vars.map (·.toVariable)
      selections := SelectionDecl.toSelections declaration.selections }
  match declaration.kind with
  | .query => .ok (ofKind .query)
  | .mutation => .ok (ofKind .mutation)
  | .subscription => .error (.unsupportedDefinition name "subscription")

/-- The operations of a text, which is reported as the document at `path`. -/
def operationsOfText (schema : ValidSchema) (text path : String) :
    Except GenerationError (List Operation) := do
  match Document.parse? text with
  | none => .error .invalidDocument
  | some document =>
    if !schema.declarations.isValidOperations document then .error .invalidDocument
    else if document.operations.any fun operation => operation.name.isNone then
      .error (.anonymousOperation path)
    else document.operations.mapM (·.toOperation)

end ClientSdk
