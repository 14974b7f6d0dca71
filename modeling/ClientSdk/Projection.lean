import ClientSdk.Error
import ClientSdk.Operation

/-!
# Projections

A projection says which fields of a type take part in a generated class: all of them, or
those of a map from field names to the projections of their types. The map is kept as a list
sorted by name, so projections that select the same fields are equal, in whatever order and
however often the fields were written.

## Main definitions

* `Projection.merge`: the union of two projections.
* `Projection.normalize`: a projection that names every field becomes `all`.
* `Projection.ofPick`, `Projection.ofSelections`: the projection of a variable and of a
  selected field.
* `Projection.fieldsOf`: the fields of a type that take part, in declaration order.
-/

namespace ClientSdk

/-- The fields used from one type, recursively. -/
inductive Projection where
  /-- Every declared field, and every field of every nested type. -/
  | all
  /-- The named fields only, each with the projection of its type, sorted by name. -/
  | fields (entries : List (String × Projection))
  deriving Inhabited

namespace Projection

/-! ### Equality -/

mutual

/-- Decides equality of projections. -/
def decEq : (p q : Projection) → Decidable (p = q)
  | all, all => isTrue rfl
  | all, fields _ => isFalse (by simp)
  | fields _, all => isFalse (by simp)
  | fields a, fields b =>
    match decEqEntries a b with
    | isTrue h => isTrue (by rw [h])
    | isFalse h => isFalse (by simpa using h)

/-- Decides equality of lists of entries. -/
def decEqEntries : (a b : List (String × Projection)) → Decidable (a = b)
  | [], [] => isTrue rfl
  | [], _ :: _ => isFalse (by simp)
  | _ :: _, [] => isFalse (by simp)
  | (m, p) :: a, (n, q) :: b =>
    if hn : m = n then
      match decEq p q, decEqEntries a b with
      | isTrue hp, isTrue hr => isTrue (by rw [hn, hp, hr])
      | isFalse hp, _ => isFalse (by simp [hp])
      | _, isFalse hr => isFalse (by simp [hr])
    else isFalse (by simp [hn])

end

instance : DecidableEq Projection := decEq

/-! ### Fields and children -/

/-- Replaces the value under `key` in a sorted list by what `f` makes of it; `f` is given
`none` where the key is new, which is then put in its place. -/
def alter {α : Type} (key : String) (f : Option α → α) :
    List (String × α) → List (String × α)
  | [] => [(key, f none)]
  | (name, value) :: rest =>
    if name = key then (name, f (some value)) :: rest
    else if key < name then (key, f none) :: (name, value) :: rest
    else (name, value) :: alter key f rest

/-- The field `name` takes part. -/
def includes (name : String) : Projection → Bool
  | all => true
  | fields entries => (entries.lookup name).isSome

/-- The projection of the type of the field `name`; `all` where nothing restricts it. -/
def child (name : String) : Projection → Projection
  | all => all
  | fields entries => (entries.lookup name).getD all

mutual

/-- The union of two projections of one type. -/
def merge (p : Projection) : Projection → Projection
  | all => all
  | fields b =>
    match p with
    | all => all
    | fields a => fields (mergeEntries a b)

/-- The union of two maps of fields. -/
def mergeEntries (a : List (String × Projection)) :
    List (String × Projection) → List (String × Projection)
  | [] => a
  | (name, q) :: b =>
    mergeEntries (alter name (fun found? => found?.elim q fun p => merge p q) a) b

end

/-! ### Normal forms -/

/-- Every field of `type` is there, with all of its own fields, and nothing else is. -/
def coversType (type : TypeDef) (entries : List (String × Projection)) : Bool :=
  type.fields.length == entries.length &&
    type.fields.all fun field => entries.lookup field.name == some all

/-- The definition of the type of the field `name`. -/
def childType? (schema : Schema) (type : TypeDef) (name : String) : Option TypeDef :=
  (type.field? name).bind fun field => schema.get? field.type.leafName

mutual

/-- The projection in normal form for `type`: where all fields are named, with all of their own
fields, it is `all`. Names that are no fields of the type stay. -/
def normalize (schema : Schema) (type : TypeDef) : Projection → Projection
  | all => all
  | fields entries =>
    let normal := normalizeEntries schema type entries
    if coversType type normal then all else fields normal

/-- The entries with their projections in normal form. -/
def normalizeEntries (schema : Schema) (type : TypeDef) :
    List (String × Projection) → List (String × Projection)
  | [] => []
  | (name, p) :: rest =>
    (name, match childType? schema type name with
      | some childType => normalize schema childType p
      | none => p) :: normalizeEntries schema type rest

end

/-! ### Variables and selections -/

/-- The entries of a pick list, on top of `entries`. -/
def pickEntries (var : Variable) (type : TypeDef) (entries : List (String × Projection)) :
    List String → Except GenerationError (List (String × Projection))
  | [] => .ok entries
  | name :: names =>
    if type.hasField name then
      pickEntries var type (alter name (fun _ => all) entries) names
    else .error (.unknownPickedField var.name name type.name)

/-- The projection of a variable of type `type`: the picked fields with all of their own fields,
or everything where no directive picks. -/
def ofPick (var : Variable) (type : TypeDef) : Except GenerationError Projection :=
  match var.pick with
  | none => .ok all
  | some names => fields <$> pickEntries var type [] names

mutual

/-- The entries of a selection at `location`, on top of `entries`. A field that is selected again
gets the union of its selections. -/
def selectEntry (location : String) (entries : List (String × Projection)) :
    Selection → Except GenerationError (List (String × Projection))
  | .field name alias? selections => do
    let path := location ++ "." ++ name
    if alias?.isSome then
      .error (.unsupportedSelection "aliased nested field" path)
    else
      let p ← if selections.isEmpty then .ok all else fields <$> selectEntries path [] selections
      return alter name (fun found? => found?.elim p (merge · p)) entries
  | .spread fragment =>
    .error (.unsupportedSelection (Selection.spread fragment).form location)
  | .inlineFragment condition =>
    .error (.unsupportedSelection (Selection.inlineFragment condition).form location)

/-- The entries of a selection set at `location`, on top of `entries`. -/
def selectEntries (location : String) (entries : List (String × Projection)) :
    List Selection → Except GenerationError (List (String × Projection))
  | [] => .ok entries
  | selection :: rest => do
    let entries ← selectEntry location entries selection
    selectEntries location entries rest

end

/-- The projection of a field with the given selections; without selections, `all`. -/
def ofSelections (location : String) (selections : List Selection) :
    Except GenerationError Projection :=
  if selections.isEmpty then .ok all else fields <$> selectEntries location [] selections

/-! ### Filtering -/

/-- The first name of a projection that is no field of `type`. -/
def unknownField? (type : TypeDef) : Projection → Option String
  | all => none
  | fields entries => (entries.find? fun entry => !type.hasField entry.1).map Prod.fst

/-- The fields of `type` that take part, in declaration order. -/
def fieldsOf (type : TypeDef) (p : Projection) : Except GenerationError (List FieldDef) :=
  match p.unknownField? type with
  | some name => .error (.unknownField type.name name)
  | none => .ok (type.fields.filter fun field => p.includes field.name)

end Projection

end ClientSdk
