import ClientSdk.Document

/-!
# Fields with One Response Key

Fields that are answered under one key are merged into one, so they must be the same field with
the same arguments, and what they select must merge in turn. All of them are on the same object
type, since no other types have fields, so nothing more is asked of them.

## Main definitions

* `Value.isSame`: two values are written alike, up to the order of the fields of objects.
* `SelectedField.canMerge`: fields can be merged.
-/

namespace ClientSdk

/-! ### Values -/

mutual

/-- Two values are the same; the order of the fields of objects is of no account. -/
def Value.isSame : Value → Value → Bool
  | .variableRef a, .variableRef b => a == b
  | .int a, .int b => a == b
  | .float a, .float b => a == b
  | .string a, .string b => a == b
  | .boolean a, .boolean b => a == b
  | .null, .null => true
  | .enum a, .enum b => a == b
  | .list a, .list b => Value.areSame a b
  | .object a, .object b => a.length == b.length && Value.areFieldsOf b a
  | _, _ => false

/-- Two lists hold the same values. -/
def Value.areSame : List Value → List Value → Bool
  | [], [] => true
  | a :: as, b :: bs => a.isSame b && Value.areSame as bs
  | _, _ => false

/-- Each of the named values is among `others`. -/
def Value.areFieldsOf (others : List (String × Value)) : List (String × Value) → Bool
  | [] => true
  | (name, value) :: fields =>
    (others.lookup name).any (fun other => value.isSame other) && Value.areFieldsOf others fields

end

/-! ### Fields -/

/-- A selected field, without the fragments it stands in. -/
inductive SelectedField where
  /-- The field `name` with its arguments, answered under `key`, and the fields it selects. -/
  | mk (key name : String) (arguments : List (String × Value)) (fields : List SelectedField)

namespace SelectedField

/-- The key under which the field is answered. -/
def key : SelectedField → String
  | mk key _ _ _ => key

/-- The fields that it selects. -/
def fields : SelectedField → List SelectedField
  | mk _ _ _ fields => fields

/-- Two fields are the same field with the same arguments. -/
def isSameField : SelectedField → SelectedField → Bool
  | mk _ name arguments _, mk _ name' arguments' _ =>
    name == name' && arguments.length == arguments'.length &&
      Value.areFieldsOf arguments' arguments

mutual

/-- The fields that a selection stands for. Spreads have been put in place before. -/
def ofSelection : SelectionDecl → List SelectedField
  | .field alias? name arguments _ selections =>
    [mk (alias?.getD name) name arguments (ofSelections selections)]
  | .spread _ _ => []
  | .inlineFragment _ _ selections => ofSelections selections

/-- The fields that selections stand for. -/
def ofSelections : List SelectionDecl → List SelectedField
  | [] => []
  | selection :: selections => ofSelection selection ++ ofSelections selections

end

mutual

/-- The number of levels of fields. -/
def depth : SelectedField → Nat
  | mk _ _ _ fields => depthOfAll fields + 1

/-- The greatest number of levels. -/
def depthOfAll : List SelectedField → Nat
  | [] => 0
  | field :: fields => max field.depth (depthOfAll fields)

end

/-- Fields of `levels` levels at most can be merged: those with one key are the same field, and
the fields that they select together can be merged. -/
def canMergeWithin : Nat → List SelectedField → Bool
  | 0, fields => fields.isEmpty
  | levels + 1, fields =>
    (fields.map key).eraseDups.all fun key =>
      match fields.filter (·.key == key) with
      | [] => true
      | first :: others =>
        others.all first.isSameField &&
          canMergeWithin levels ((first :: others).flatMap SelectedField.fields)

/-- Fields can be merged. -/
def canMerge (fields : List SelectedField) : Bool := canMergeWithin (depthOfAll fields) fields

end SelectedField

end ClientSdk
