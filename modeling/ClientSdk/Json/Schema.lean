import ClientSdk.Json.Reader
import ClientSdk.Operation

/-!
# Schemas and Operations as JSON

The JSON form of schemas and operations, and how it is read back. A structure is an object with
its fields in order, and a value with several forms is an object with the name of the form as
its only key, or the bare name where the form holds nothing.

Reading is a little wider than writing: a structure may also be a list of its fields, members
with unknown keys are ignored, an optional field may be missing, and a bare name may also be an
object with the name as its only key and null as its value.

## Main definitions

* `Json.Form`: how a type is written and read.
* the instances of `Json.Form` for type references, schemas and operations.
-/

namespace ClientSdk

namespace Json

/-- A type with a JSON form. -/
class Form (α : Type) where
  /-- Writes a value. -/
  write : α → Json
  /-- Reads a value. -/
  read? : Json → Option α

open Form

instance : Form String where
  write := string
  read?
    | string text => some text
    | _ => none

instance : Form Bool where
  write := bool
  read?
    | bool value => some value
    | _ => none

instance {α : Type} [Form α] : Form (List α) where
  write values := array (values.map write)
  read?
    | array items => items.mapM read?
    | _ => none

instance {α : Type} [Form α] : Form (Option α) where
  write
    | some value => write value
    | none => null
  read?
    | null => some none
    | value => some <$> read? value

/-! ### Structures -/

/-- The values of the fields `names` of a structure. A list gives them in order, all of them. An
object gives them by key, each key at most once; a missing field reads as null if it is among
`optional`, and keys that are no field names are ignored. -/
def fieldsOf? (names optional : List String) : Json → Option (List Json)
  | array items => if items.length = names.length then some items else none
  | object members =>
    names.mapM fun name =>
      match members.filter (·.1 = name) with
      | [] => if name ∈ optional then some null else none
      | [(_, value)] => some value
      | _ => none
  | _ => none

/-- The form and the content of a value with several forms. A bare name has null as content. -/
def variant? : Json → Option (String × Option Json)
  | string name => some (name, none)
  | object [(name, content)] => some (name, some content)
  | _ => none

/-- Reads a form that holds nothing. -/
def bareVariant? (value : Json) : Option String :=
  match variant? value with
  | some (name, none) => some name
  | some (name, some null) => some name
  | _ => none

/-! ### Type references -/

/-- Writes a type reference. -/
def writeTypeRef : TypeRef → Json
  | .named name nullable =>
    object [("kind", object [("Named", string name)]), ("nullable", bool nullable)]
  | .list element nullable =>
    object [("kind", object [("List", writeTypeRef element)]), ("nullable", bool nullable)]

/-- Reads a type reference with at most `fuel` levels. -/
def readTypeRef? : Nat → Json → Option TypeRef
  | 0, _ => none
  | fuel + 1, value => do
    match ← fieldsOf? ["kind", "nullable"] [] value with
    | [kind, nullable] =>
      let nullable ← read? nullable
      match ← variant? kind with
      | ("Named", some name) => return .named (← read? name) nullable
      | ("List", some element) => return .list (← readTypeRef? fuel element) nullable
      | _ => none
    | _ => none

/-- The levels of lists and objects in a value. -/
def levels : Json → Nat
  | array items => levelsOfItems items + 1
  | object members => levelsOfMembers members + 1
  | _ => 1
where
  /-- The levels in a list of values. -/
  levelsOfItems : List Json → Nat
    | [] => 0
    | item :: items => max (levels item) (levelsOfItems items)
  /-- The levels in a list of members. -/
  levelsOfMembers : List (String × Json) → Nat
    | [] => 0
    | (_, value) :: members => max (levels value) (levelsOfMembers members)

instance : Form TypeRef where
  write := writeTypeRef
  read? value := readTypeRef? (levels value) value

/-! ### Schemas -/

instance : Form TypeKind where
  write kind := string kind.label
  read? value := do
    match ← bareVariant? value with
    | "Object" => return .object
    | "Input" => return .input
    | "Scalar" => return .scalar
    | _ => none

instance : Form ArgumentDef where
  write arg :=
    object [("name", write arg.name), ("ty", write arg.type),
      ("description", write arg.description)]
  read? value := do
    match ← fieldsOf? ["name", "ty", "description"] ["description"] value with
    | [name, type, description] =>
      return {
        name := ← read? name, type := ← read? type, description := ← read? description }
    | _ => none

instance : Form FieldDef where
  write field :=
    object [("name", write field.name), ("ty", write field.type),
      ("arguments", write field.arguments), ("description", write field.description)]
  read? value := do
    match ← fieldsOf? ["name", "ty", "arguments", "description"] ["description"] value with
    | [name, type, arguments, description] =>
      return {
        name := ← read? name, type := ← read? type, arguments := ← read? arguments
        description := ← read? description }
    | _ => none

instance : Form TypeDef where
  write type :=
    object [("name", write type.name), ("kind", write type.kind), ("fields", write type.fields),
      ("builtin", write type.builtin), ("description", write type.description)]
  read? value := do
    match ← fieldsOf? ["name", "kind", "fields", "builtin", "description"] ["description"]
        value with
    | [name, kind, fields, builtin, description] =>
      return {
        name := ← read? name, kind := ← read? kind, fields := ← read? fields
        builtin := ← read? builtin, description := ← read? description }
    | _ => none

instance : Form TypeMap where
  write types := object (types.entries.map fun entry => (entry.1, write entry.2))
  read?
    | object members =>
      members.foldlM (fun (types : TypeMap) (member : String × Json) => do
        return types.insert member.1 (← read? member.2)) .empty
    | _ => none

instance : Form Schema where
  write schema :=
    object [("types", write schema.types), ("query", write schema.query),
      ("mutation", write schema.mutation)]
  read? value := do
    match ← fieldsOf? ["types", "query", "mutation"] [] value with
    | [types, query, mutation] =>
      return { types := ← read? types, query := ← read? query, mutation := ← read? mutation }
    | _ => none

/-! ### Operations -/

instance : Form OperationKind where
  write kind := string kind.keyword
  read? value := do OperationKind.ofKeyword? (← bareVariant? value)

instance : Form Variable where
  write var :=
    object [("name", write var.name), ("ty", write var.type), ("pick", write var.pick)]
  read? value := do
    match ← fieldsOf? ["name", "ty", "pick"] ["pick"] value with
    | [name, type, pick] =>
      return { name := ← read? name, type := ← read? type, pick := ← read? pick }
    | _ => none

mutual

/-- Writes a selection. -/
def writeSelection : Selection → Json
  | .field name alias? selections =>
    object [("Field", object [("name", write name), ("alias", write alias?),
      ("selections", array (writeSelections selections))])]
  | .spread fragment => object [("FragmentSpread", object [("name", write fragment)])]
  | .inlineFragment condition =>
    object [("InlineFragment", object [("type_condition", write condition)])]

/-- Writes a list of selections. -/
def writeSelections : List Selection → List Json
  | [] => []
  | selection :: selections => writeSelection selection :: writeSelections selections

end

/-- Reads a selection with at most `fuel` levels. -/
def readSelection? : Nat → Json → Option Selection
  | 0, _ => none
  | fuel + 1, value => do
    match ← variant? value with
    | ("Field", some content) =>
      match ← fieldsOf? ["name", "alias", "selections"] ["alias"] content with
      | [name, alias?, array selections] =>
        let selections ← selections.mapM (readSelection? fuel)
        return .field (← read? name) (← read? alias?) selections
      | _ => none
    | ("FragmentSpread", some content) =>
      match ← fieldsOf? ["name"] [] content with
      | [name] => return .spread (← read? name)
      | _ => none
    | ("InlineFragment", some content) =>
      match ← fieldsOf? ["type_condition"] ["type_condition"] content with
      | [condition] => return .inlineFragment (← read? condition)
      | _ => none
    | _ => none

instance : Form Selection where
  write := writeSelection
  read? value := readSelection? (levels value) value

instance : Form Operation where
  write operation :=
    object [("name", write operation.name), ("kind", write operation.kind),
      ("variables", write operation.vars), ("selections", write operation.selections)]
  read? value := do
    match ← fieldsOf? ["name", "kind", "variables", "selections"] [] value with
    | [name, kind, vars, selections] =>
      return {
        name := ← read? name, kind := ← read? kind, vars := ← read? vars
        selections := ← read? selections }
    | _ => none

/-- The levels of lists and objects that a document may have. -/
def documentDepth : Nat := 127

/-- The value of a JSON document. -/
def readDocument? (α : Type) [Form α] (text : String) : Option α :=
  (parse? documentDepth text).bind read?

end Json

end ClientSdk
