import ClientSdk.Document

/-!
# Fragments in Place

A spread of a named fragment stands for an inline fragment with the condition and the selections
of that fragment. Where fragments do not lead back to themselves, putting them in place ends after
as many levels as there are fragments.

## Main definitions

* `SelectionDecl.spreads`: the fragments that a selection names.
* `inlineFragments?`: selections with every fragment in place.
* `SelectionDecl.usedVars`: the variables that a selection uses.
-/

namespace ClientSdk

/-! ### Spreads -/

mutual

/-- The fragments that a selection names. -/
def SelectionDecl.spreads : SelectionDecl → List String
  | .field _ _ _ _ selections => SelectionDecl.spreadsOfAll selections
  | .spread fragment _ => [fragment]
  | .inlineFragment _ _ selections => SelectionDecl.spreadsOfAll selections

/-- The fragments that selections name. -/
def SelectionDecl.spreadsOfAll : List SelectionDecl → List String
  | [] => []
  | selection :: selections => selection.spreads ++ SelectionDecl.spreadsOfAll selections

end

mutual

/-- A selection with the fragments that `resolve` knows in place. -/
def SelectionDecl.inlineWith? (resolve : String → Option (String × List SelectionDecl)) :
    SelectionDecl → Option SelectionDecl
  | .field alias? name arguments directives selections => do
    return .field alias? name arguments directives
      (← SelectionDecl.inlineAllWith? resolve selections)
  | .spread fragment directives => do
    let (condition, selections) ← resolve fragment
    return .inlineFragment (some condition) directives selections
  | .inlineFragment condition directives selections => do
    return .inlineFragment condition directives
      (← SelectionDecl.inlineAllWith? resolve selections)

/-- Selections with the fragments that `resolve` knows in place. -/
def SelectionDecl.inlineAllWith? (resolve : String → Option (String × List SelectionDecl)) :
    List SelectionDecl → Option (List SelectionDecl)
  | [] => some []
  | selection :: selections => do
    let first ← selection.inlineWith? resolve
    return first :: (← SelectionDecl.inlineAllWith? resolve selections)

end

/-- Selections with every fragment in place, down to `depth` fragments within fragments. Fails
where a fragment is unknown or lies deeper. -/
def inlineFragments? (fragments : List FragmentDecl) :
    Nat → List SelectionDecl → Option (List SelectionDecl)
  | 0, selections => SelectionDecl.inlineAllWith? (fun _ => none) selections
  | depth + 1, selections =>
    SelectionDecl.inlineAllWith?
      (fun name => do
        let fragment ← fragments.find? (·.name == name)
        return (fragment.typeCondition,
          ← inlineFragments? fragments depth fragment.selections))
      selections

/-! ### Variables -/

mutual

/-- The variables in a value. -/
def Value.usedVars : Value → List String
  | .variableRef name => [name]
  | .list items => Value.usedVarsOfAll items
  | .object fields => Value.usedVarsOfFields fields
  | _ => []

/-- The variables in values. -/
def Value.usedVarsOfAll : List Value → List String
  | [] => []
  | item :: items => item.usedVars ++ Value.usedVarsOfAll items

/-- The variables in named values. -/
def Value.usedVarsOfFields : List (String × Value) → List String
  | [] => []
  | (_, value) :: fields => value.usedVars ++ Value.usedVarsOfFields fields

end

/-- The variables in directives. -/
def Directive.usedVarsOfAll (directives : List Directive) : List String :=
  directives.flatMap fun directive => Value.usedVarsOfFields directive.arguments

mutual

/-- The variables that a selection uses. -/
def SelectionDecl.usedVars : SelectionDecl → List String
  | .field _ _ arguments directives selections =>
    Value.usedVarsOfFields arguments ++ Directive.usedVarsOfAll directives ++
      SelectionDecl.usedVarsOfAll selections
  | .spread _ directives => Directive.usedVarsOfAll directives
  | .inlineFragment _ directives selections =>
    Directive.usedVarsOfAll directives ++ SelectionDecl.usedVarsOfAll selections

/-- The variables that selections use. -/
def SelectionDecl.usedVarsOfAll : List SelectionDecl → List String
  | [] => []
  | selection :: selections =>
    selection.usedVars ++ SelectionDecl.usedVarsOfAll selections

end

end ClientSdk
