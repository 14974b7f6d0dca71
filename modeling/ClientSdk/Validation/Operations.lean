import ClientSdk.Validation.Fragments
import ClientSdk.Validation.Merging
import ClientSdk.Validation.Values

/-!
# Validity of Operation Documents

The rules that an operation document obeys against a valid schema: its names are distinct, its
fragments are used and lead nowhere back, and every operation selects fields that exist, passes
arguments that fit, and uses exactly the variables that it declares.

## Main definitions

* `Declarations.isValidSelection`: a selection is valid on a type.
* `Declarations.isValidOperation`: an operation is valid.
* `Declarations.isValidOperations`: an operation document is valid.
-/

namespace ClientSdk

namespace Declarations

/-! ### Selections -/

/-- The fields of the object type `name`, with those that need no declaration. -/
def fields (declarations : Declarations) (name : String) : List FieldDecl :=
  match (declarations.type? name).map TypeDecl.body with
  | some (.object _ fields) =>
    BuiltIn.typeNameField ::
      (if declarations.root? .query = some name then BuiltIn.metaFields else []) ++ fields
  | _ => []

/-- The type `name` has no fields to select. -/
def isLeaf (declarations : Declarations) (name : String) : Bool :=
  declarations.bodySatisfies TypeBody.isLeaf name

mutual

/-- A selection is valid on the object type `parent`. Something is selected from a field if and
only if its type has fields. A fragment is on its parent's type, for two object types have no
values in common. Named fragments have been put in place before. -/
def isValidSelection (declarations : Declarations) (vars : List VariableDecl)
    (parent : String) : SelectionDecl → Bool
  | .field _ name arguments directives selections =>
    match (declarations.fields parent).find? (·.name == name) with
    | some field =>
      let leaf := field.type.leafName
      declarations.acceptsArguments vars field.arguments arguments &&
        declarations.acceptsDirectives vars "FIELD" directives &&
        declarations.isLeaf leaf == selections.isEmpty &&
        areValidSelections declarations vars leaf selections
    | none => false
  | .spread _ _ => false
  | .inlineFragment condition directives selections =>
    condition.all (· == parent) &&
      declarations.acceptsDirectives vars "INLINE_FRAGMENT" directives &&
      areValidSelections declarations vars parent selections

/-- Selections are valid on the object type `parent`. -/
def areValidSelections (declarations : Declarations) (vars : List VariableDecl)
    (parent : String) : List SelectionDecl → Bool
  | [] => true
  | selection :: selections =>
    isValidSelection declarations vars parent selection &&
      areValidSelections declarations vars parent selections

end

/-! ### Operations -/

/-- A variable has an input type, and its default value and its directives fit. -/
def isValidVariable (declarations : Declarations) (var : VariableDecl) : Bool :=
  declarations.bodySatisfies TypeBody.isInput var.type.leafName &&
    var.default.all (declarations.accepts [] var.type false) &&
    declarations.acceptsDirectives [] "VARIABLE_DEFINITION" var.directives

/-- The place of directives on an operation. -/
def operationLocation : RootKind → String
  | .query => "QUERY"
  | .mutation => "MUTATION"
  | .subscription => "SUBSCRIPTION"

/-- An operation is valid: its root exists, its variables are distinct, valid and used, and what
it selects is valid and can be merged. -/
def isValidOperation (declarations : Declarations) (fragments : List FragmentDecl)
    (operation : OperationDecl) : Bool :=
  let vars := operation.vars
  match declarations.root? operation.kind,
    inlineFragments? fragments fragments.length operation.selections with
  | some root, some selections =>
    let used :=
      Directive.usedVarsOfAll operation.directives ++ SelectionDecl.usedVarsOfAll selections
    declarations.acceptsDirectives vars (operationLocation operation.kind) operation.directives &&
      allDistinct (vars.map (·.name)) &&
      vars.all declarations.isValidVariable &&
      vars.all (fun var => used.contains var.name) &&
      declarations.areValidSelections vars root selections &&
      SelectedField.canMerge (SelectedField.ofSelections selections)
  | _, _ => false

/-! ### Documents -/

/-- A definition may stand in an operation document. -/
def isExecutable : Definition → Bool
  | .operation _ => true
  | .fragment _ => true
  | _ => false

/-- There is an operation; operations have distinct names, and one without a name is the only
one. -/
def haveValidNames (operations : List OperationDecl) : Bool :=
  !operations.isEmpty && allDistinct (operations.filterMap (·.name)) &&
    (operations.length == 1 || operations.all fun operation => operation.name.isSome)

/-- Fragments have distinct names, are used somewhere, have no directives that may not stand on
them, and do not lead back to themselves. -/
def areValidFragments (declarations : Declarations) (operations : List OperationDecl)
    (fragments : List FragmentDecl) : Bool :=
  let used :=
    SelectionDecl.spreadsOfAll (operations.flatMap (·.selections)) ++
      SelectionDecl.spreadsOfAll (fragments.flatMap (·.selections))
  allDistinct (fragments.map (·.name)) &&
    fragments.all (fun fragment => used.contains fragment.name) &&
    fragments.all (fun fragment =>
      declarations.acceptsDirectives [] "FRAGMENT_DEFINITION" fragment.directives) &&
    References.isGrounded
      (fragments.map fun fragment =>
        (fragment.name, SelectionDecl.spreadsOfAll fragment.selections))

/-- An operation document is valid. -/
def isValidOperations (declarations : Declarations) (document : Document) : Bool :=
  let operations := document.operations
  let fragments := document.fragments
  document.all isExecutable && haveValidNames operations &&
    declarations.areValidFragments operations fragments &&
    operations.all (declarations.isValidOperation fragments)

end Declarations

end ClientSdk
