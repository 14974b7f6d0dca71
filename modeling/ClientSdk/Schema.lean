import ClientSdk.TypeName
import ClientSdk.TypeRef

/-!
# Schemas

A schema holds its types in declaration order, keyed by name, and beside them the two root
types whose fields are the queries and the mutations. The order of fields and arguments is
kept everywhere, since it becomes the order of parameters in generated code.

## Main definitions

* `ArgumentDef`, `FieldDef`, `TypeDef`: declarations.
* `TypeMap`: definitions under distinct keys, in order, with `get?`, `insert` and `modify`.
* `Schema`: a type map and the two roots.

## Main results

* `TypeMap.keys_modify`: changing a definition keeps every key in its place.
* `TypeMap.keys_insert`: inserting adds at most one key, at the end.
-/

namespace ClientSdk

/-! ### Declarations -/

/-- The kinds of type definition. -/
inductive TypeKind where
  /-- An output type with fields. -/
  | object
  /-- A type of arguments with fields. -/
  | input
  /-- A leaf type. -/
  | scalar
  deriving DecidableEq, Repr, Inhabited

/-- The name of a kind. -/
def TypeKind.label : TypeKind → String
  | object => "Object"
  | input => "Input"
  | scalar => "Scalar"

/-- An argument of a field. -/
structure ArgumentDef where
  /-- The name of the argument. -/
  name : String
  /-- The type of the values it takes. -/
  type : TypeRef
  /-- What its documentation says. -/
  description : Option String := none
  deriving DecidableEq, Repr, Inhabited

/-- A field of an object or input type. -/
structure FieldDef where
  /-- The name of the field. -/
  name : String
  /-- The type of its values. -/
  type : TypeRef
  /-- The arguments it takes, in declaration order. -/
  arguments : List ArgumentDef := []
  /-- What its documentation says. -/
  description : Option String := none
  deriving DecidableEq, Repr, Inhabited

/-- A named type. -/
structure TypeDef where
  /-- The name of the type. -/
  name : String
  /-- Its kind. -/
  kind : TypeKind := .object
  /-- Its fields, in declaration order. -/
  fields : List FieldDef := []
  /-- The type belongs to every schema or to the generator, and nothing is synthesized
  for it. -/
  builtin : Bool := false
  /-- What its documentation says. -/
  description : Option String := none
  deriving DecidableEq, Repr, Inhabited

namespace TypeDef

/-- The scalar `name` that belongs to every schema or to the generator. -/
def givenScalar (name : String) : TypeDef :=
  { name := name, kind := .scalar, builtin := true }

/-- The type is a leaf. -/
def isScalar (type : TypeDef) : Bool := type.kind == .scalar

/-- The first field called `name`. -/
def field? (type : TypeDef) (name : String) : Option FieldDef :=
  type.fields.find? (·.name == name)

/-- The type declares a field called `name`. -/
def hasField (type : TypeDef) (name : String) : Bool := (type.field? name).isSome

/-- The type with `field` after its other fields. -/
def pushField (type : TypeDef) (field : FieldDef) : TypeDef :=
  { type with fields := type.fields ++ [field] }

/-- The type is declared by the user of the schema and has output fields. -/
def isUserObject (type : TypeDef) : Bool := !type.builtin && type.kind == .object

end TypeDef

/-! ### Type maps -/

/-- Type definitions under distinct keys, in order. -/
structure TypeMap where
  /-- The keys with their definitions. -/
  entries : List (String × TypeDef)
  /-- No key occurs twice. -/
  nodup_keys : (entries.map Prod.fst).Nodup

namespace TypeMap

instance : DecidableEq TypeMap := fun a b =>
  if h : a.entries = b.entries then
    isTrue (by cases a; cases b; cases h; rfl)
  else
    isFalse fun hab => h (hab ▸ rfl)

/-- The keys, in order. -/
def keys (types : TypeMap) : List String := types.entries.map Prod.fst

/-- The definitions, in the order of their keys. -/
def values (types : TypeMap) : List TypeDef := types.entries.map Prod.snd

/-- The map without definitions. -/
def empty : TypeMap := ⟨[], List.nodup_nil⟩

instance : Inhabited TypeMap := ⟨empty⟩

/-- The definition under `key`. -/
def get? (types : TypeMap) (key : String) : Option TypeDef := types.entries.lookup key

/-- There is a definition under `key`. -/
def contains (types : TypeMap) (key : String) : Bool := (types.get? key).isSome

/-- Applies `f` to the definition under `key` in a list of entries. -/
def modifyEntries (key : String) (f : TypeDef → TypeDef) (entries : List (String × TypeDef)) :
    List (String × TypeDef) :=
  entries.map fun entry => if entry.1 = key then (entry.1, f entry.2) else entry

/-- Changing definitions keeps the keys. -/
theorem map_fst_modifyEntries (key : String) (f : TypeDef → TypeDef)
    (entries : List (String × TypeDef)) :
    (modifyEntries key f entries).map Prod.fst = entries.map Prod.fst := by
  rw [modifyEntries, List.map_map]
  refine List.map_congr_left fun entry _ => ?_
  by_cases h : entry.1 = key <;> simp [h]

/-- The map with `f` applied to the definition under `key`, if there is one. -/
def modify (types : TypeMap) (key : String) (f : TypeDef → TypeDef) : TypeMap where
  entries := modifyEntries key f types.entries
  nodup_keys := by rw [map_fst_modifyEntries]; exact types.nodup_keys

/-- The map with `type` under `key`. A definition that is replaced keeps its place, and a new
one comes last. -/
def insert (types : TypeMap) (key : String) (type : TypeDef) : TypeMap :=
  if h : key ∈ types.keys then types.modify key fun _ => type
  else
    { entries := types.entries ++ [(key, type)]
      nodup_keys := by
        rw [List.map_append, List.nodup_append]
        refine ⟨types.nodup_keys, by simp, ?_⟩
        intro a ha b hb hab
        simp only [List.map_cons, List.map_nil, List.mem_singleton] at hb
        exact h (by rw [keys, ← hb, ← hab]; exact ha) }

/-- Changing a definition keeps every key in its place. -/
theorem keys_modify (types : TypeMap) (key : String) (f : TypeDef → TypeDef) :
    (types.modify key f).keys = types.keys :=
  map_fst_modifyEntries key f types.entries

/-- Inserting under a known key keeps the keys, and under a new one adds it at the end. -/
theorem keys_insert (types : TypeMap) (key : String) (type : TypeDef) :
    (types.insert key type).keys =
      if key ∈ types.keys then types.keys else types.keys ++ [key] := by
  unfold insert
  split
  · exact keys_modify ..
  · simp [keys]

/-- The map of a list of definitions, each under its own name, inserted one by one. -/
def ofList (types : List TypeDef) : TypeMap :=
  types.foldl (fun map type => map.insert type.name type) empty

end TypeMap

/-! ### Schemas -/

/-- Which of the two roots an operation starts from. -/
inductive OperationKind where
  /-- The operation reads. -/
  | query
  /-- The operation writes. -/
  | mutation
  deriving DecidableEq, Repr, Inhabited

/-- The keyword of a kind of operation. -/
def OperationKind.keyword : OperationKind → String
  | query => "query"
  | mutation => "mutation"

/-- The kind of operation with the given keyword. -/
def OperationKind.ofKeyword? (keyword : String) : Option OperationKind :=
  if keyword = "query" then some .query
  else if keyword = "mutation" then some .mutation
  else none

/-- A schema: its types and its two roots, which are kept apart from the types. -/
structure Schema where
  /-- The types other than the roots. -/
  types : TypeMap
  /-- The type whose fields are the queries. -/
  query : TypeDef
  /-- The type whose fields are the mutations. -/
  mutation : TypeDef
  deriving DecidableEq, Inhabited

namespace Schema

/-- The schema of the built-in scalars and two empty roots with the given names. -/
def ofRoots (query mutation : String) : Schema where
  types := .ofList (standardScalars.map .givenScalar)
  query := { name := query }
  mutation := { name := mutation }

/-- The schema of the built-in scalars and two empty roots with the usual names. -/
def empty : Schema := ofRoots "Query" "Mutation"

/-- The type under the key `name`. -/
def get? (schema : Schema) (name : String) : Option TypeDef := schema.types.get? name

/-- The schema with `type` under its own name. -/
def declare (schema : Schema) (type : TypeDef) : Schema :=
  { schema with types := schema.types.insert type.name type }

/-- The root that operations of the given kind start from. -/
def root (schema : Schema) : OperationKind → TypeDef
  | .query => schema.query
  | .mutation => schema.mutation

/-- The names of the types that are not built in, in declaration order. -/
def declaredNames (schema : Schema) : List String :=
  (schema.types.values.filter fun type => !type.builtin).map (·.name)

/-- The types for which augmentation synthesizes declarations, in declaration order. -/
def userObjects (schema : Schema) : List TypeDef :=
  schema.types.values.filter (·.isUserObject)

end Schema

end ClientSdk
