import ClientSdk.Schema

/-!
# Operations

One named query or mutation: the variables it declares, with the fields that a `@pick`
directive lists, and the tree of fields it selects.

## Main definitions

* `Variable`, `Selection`, `Operation`.
* `Selection.responseKey?`: the key under which a selected field is answered.
-/

namespace ClientSdk

/-- A variable that an operation declares. -/
structure Variable where
  /-- The name, without the dollar sign. -/
  name : String
  /-- The type of its values. -/
  type : TypeRef
  /-- The field names its `@pick` directive lists, as written; `none` without directive. -/
  pick : Option (List String) := none
  deriving DecidableEq, Repr, Inhabited

/-- One entry of a selection set. -/
inductive Selection where
  /-- A field, under another response key if an alias is given, with its own selections. -/
  | field (name : String) (alias? : Option String) (selections : List Selection)
  /-- The selections of a named fragment. -/
  | spread (fragment : String)
  /-- Selections on a type condition, if one is given. -/
  | inlineFragment (typeCondition : Option String)
  deriving Inhabited

namespace Selection

/-- The name of an entry's form. -/
def form : Selection → String
  | field .. => "field"
  | spread _ => "fragment spread"
  | inlineFragment _ => "inline fragment"

/-- The key under which a field is answered: its alias, or else its name. -/
def responseKey? : Selection → Option String
  | field name alias? _ => some (alias?.getD name)
  | spread _ => none
  | inlineFragment _ => none

end Selection

/-- A named query or mutation. -/
structure Operation where
  /-- The name of the operation. -/
  name : String
  /-- The root it starts from. -/
  kind : OperationKind
  /-- Its variables, in declaration order. -/
  vars : List Variable := []
  /-- What it selects from the root. -/
  selections : List Selection := []
  deriving Inhabited

end ClientSdk
