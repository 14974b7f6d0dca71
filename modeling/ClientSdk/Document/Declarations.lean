import ClientSdk.Document.BuiltIn

/-!
# Declarations of a Document

What a schema document declares once its extensions are merged into what they extend. Nothing
may be declared twice, an extension must be of the same kind as its type, and a schema document
holds no operations. References are not looked at here.

## Main definitions

* `Declarations`: types, roots and directives.
* `Declarations.ofDocument?`: what a document declares.
-/

namespace ClientSdk

/-! ### Merging -/

/-- No name occurs twice. -/
def allDistinct {α : Type} [DecidableEq α] (names : List α) : Bool := decide names.Nodup

namespace TypeBody

/-- What a type and an addition to it declare together; they must be of one kind. -/
def append? : TypeBody → TypeBody → Option TypeBody
  | scalar, scalar => some scalar
  | object interfaces fields, object interfaces' fields' =>
    some (object (interfaces ++ interfaces') (fields ++ fields'))
  | interface interfaces fields, interface interfaces' fields' =>
    some (interface (interfaces ++ interfaces') (fields ++ fields'))
  | union members, union members' => some (union (members ++ members'))
  | enum values, enum values' => some (enum (values ++ values'))
  | input fields, input fields' => some (input (fields ++ fields'))
  | _, _ => none

/-- Nothing is declared twice. -/
def isDistinct : TypeBody → Bool
  | scalar => true
  | object interfaces fields => allDistinct interfaces && allDistinct (fields.map (·.name))
  | interface interfaces fields => allDistinct interfaces && allDistinct (fields.map (·.name))
  | union members => allDistinct members
  | enum values => allDistinct values
  | input fields => allDistinct (fields.map (·.name))

end TypeBody

namespace TypeDecl

/-- A type with an addition. Its documentation stays. -/
def append? (declaration addition : TypeDecl) : Option TypeDecl := do
  let body ← declaration.body.append? addition.body
  return { declaration with body, directives := declaration.directives ++ addition.directives }

/-- A type with those of the additions that are to it. Fails where something is declared
twice. -/
def extend? (additions : List TypeDecl) (declaration : TypeDecl) : Option TypeDecl := do
  let own := additions.filter (·.name == declaration.name)
  let extended ← own.foldlM append? declaration
  if extended.body.isDistinct then return extended else none

end TypeDecl

/-! ### The parts of a document -/

namespace Document

/-- The types that a document declares. -/
def types (document : Document) : List TypeDecl :=
  document.filterMap fun
    | .type declaration => some declaration
    | _ => none

/-- The additions to types. -/
def typeExtensions (document : Document) : List TypeDecl :=
  document.filterMap fun
    | .typeExtension declaration => some declaration
    | _ => none

/-- The schema declarations, each with its roots. -/
def schemas (document : Document) : List Roots :=
  document.filterMap fun
    | .schema _ roots => some roots
    | _ => none

/-- The roots that are added to the schema. -/
def addedRoots (document : Document) : Roots :=
  document.flatMap fun
    | .schemaExtension _ roots => roots
    | _ => []

/-- The directives that a document declares. -/
def directives (document : Document) : List DirectiveDecl :=
  document.filterMap fun
    | .directive declaration => some declaration
    | _ => none

/-- The operations of a document. -/
def operations (document : Document) : List OperationDecl :=
  document.filterMap fun
    | .operation declaration => some declaration
    | _ => none

/-- The fragments of a document. -/
def fragments (document : Document) : List FragmentDecl :=
  document.filterMap fun
    | .fragment declaration => some declaration
    | _ => none

end Document

/-! ### Declarations -/

/-- What a schema document declares. -/
structure Declarations where
  /-- The types that are not built in, in order. -/
  types : List TypeDecl
  /-- The built-in types, with what the document adds to them. -/
  builtins : List TypeDecl
  /-- The roots, each kind at most once. -/
  roots : Roots
  /-- The directives, built-in ones included. -/
  directives : List DirectiveDecl
  deriving Inhabited

namespace Declarations

/-- The type `name`. -/
def type? (declarations : Declarations) (name : String) : Option TypeDecl :=
  (declarations.types ++ declarations.builtins).find? (·.name == name)

/-- The name of a root. -/
def root? (declarations : Declarations) (kind : RootKind) : Option String :=
  declarations.roots.lookup kind

/-- The directive `name`. -/
def directive? (declarations : Declarations) (name : String) : Option DirectiveDecl :=
  declarations.directives.find? (·.name == name)

/-- The name that a root has where no schema declaration names it. -/
def usualRootName : RootKind → String
  | .query => "Query"
  | .mutation => "Mutation"
  | .subscription => "Subscription"

/-- The roots of a document without a schema declaration: the object types with the usual
names. -/
def usualRoots (types : List TypeDecl) : Roots :=
  [RootKind.query, .mutation, .subscription].filterMap fun kind =>
    types.findSome? fun declaration =>
      match declaration.body with
      | .object .. =>
        if declaration.name = usualRootName kind then some (kind, declaration.name) else none
      | _ => none

/-- The types that are only ever added to, with nothing declared but the name, in the order in
which they first occur. -/
def undeclared (names : List String) : List TypeDecl → List TypeDecl
  | [] => []
  | addition :: additions =>
    if addition.name ∈ names then undeclared names additions
    else
      let body : TypeBody :=
        match addition.body with
        | .scalar => .scalar
        | .object .. => .object [] []
        | .interface .. => .interface [] []
        | .union _ => .union []
        | .enum _ => .enum []
        | .input _ => .input []
      { name := addition.name, body } :: undeclared (addition.name :: names) additions

/-- The roots of a document, with those that are added. -/
def rootsOf? (document : Document) : Option Roots :=
  let roots :=
    match document.schemas with
    | [] => some (usualRoots document.types)
    | [roots] => some roots
    | _ => none
  roots.bind fun roots =>
    let all := roots ++ document.addedRoots
    if allDistinct (all.map Prod.fst) then some all else none

/-- What a document declares; `none` where something is declared twice, where an extension does
not fit its type, or where the document holds operations or fragments. A type that is only ever
added to is declared by that, after the others. A document may declare built-in directives
anew, but no built-in types. -/
def ofDocument? (document : Document) : Option Declarations := do
  let names := document.types.map (·.name)
  let builtinNames := BuiltIn.types.map (·.name)
  let directiveNames := document.directives.map (·.name)
  if allDistinct names && allDistinct directiveNames && !names.any builtinNames.contains &&
      document.operations.isEmpty && document.fragments.isEmpty then
    let additions := document.typeExtensions
    let declared := document.types ++ undeclared (names ++ builtinNames) additions
    return {
      types := ← declared.mapM (·.extend? additions)
      builtins := ← BuiltIn.types.mapM (·.extend? additions)
      roots := ← rootsOf? document
      directives :=
        document.directives ++
          BuiltIn.directives.filter fun directive => !directiveNames.contains directive.name }
  else none

end Declarations

end ClientSdk
