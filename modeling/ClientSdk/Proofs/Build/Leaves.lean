import ClientSdk.Proofs.Build.Discovery
import ClientSdk.Proofs.Build.Flatten

/-!
# Leaves of Variables

The helper of an operation has one parameter for each leaf of its variables. A leaf stands at a
position: the place of a variable, then the places of the fields that lead to it, each counted
among the fields that take part. The order of positions is the depth-first order of
declaration. A leaf is called after its last field, unless another leaf is called so too; then it
is called after its whole path. Flattening makes the parameters in the order of positions, or
fails where two of these names are equal.

## Main definitions

* `LeafAt`, `IsLeaf`: the leaf at a position of a value, and of a list of bindings.
* `ListsLeaves`: a list has all leaves, in the order of their positions.
* `flatName`: the name of a leaf among others.
* `Meets`, `Stops`: the objects that flattening meets, and what stops it there.

## Main results

* `stops_of_mapM_shapeOfBinding`, `not_stops_of_mapM_shapeOfBinding`: shapes are made unless
  something stops flattening.
* `mem_placed_iff`: the leaves of a shape are the leaves of its value.
* `ListsLeaves.unique`: the leaves can be listed in one way only.
* `flattenVariables_exact`: the parameters are the leaves in order, under their names.
-/

namespace ClientSdk

/-! ### Positions in a shape -/

namespace ValueShape

mutual

/-- The leaves of a shape with their positions, depth first. -/
def placed : ValueShape → List (List Nat × FlatLeaf)
  | leaf l => [([], l)]
  | nested _ _ fields => placedFields 0 fields

/-- The leaves of fields with their positions, where the first field stands at `first`. -/
def placedFields (first : Nat) : List (String × ValueShape) → List (List Nat × FlatLeaf)
  | [] => []
  | (_, shape) :: rest =>
    shape.placed.map (fun entry => (first :: entry.1, entry.2)) ++ placedFields (first + 1) rest

end

mutual

/-- Without their positions, these are the leaves of the shape. -/
theorem map_snd_placed : (shape : ValueShape) → shape.placed.map Prod.snd = shape.leaves
  | leaf l => by rw [placed, leaves, List.map_singleton]
  | nested type nullable fields => by
      rw [placed, leaves]
      exact map_snd_placedFields 0 fields

/-- Without their positions, these are the leaves of the fields. -/
theorem map_snd_placedFields (first : Nat) : (fields : List (String × ValueShape)) →
    (placedFields first fields).map Prod.snd = leavesOfFields fields
  | [] => by rw [placedFields, leavesOfFields, List.map_nil]
  | (name, shape) :: rest => by
      rw [placedFields, leavesOfFields, List.map_append, List.map_map,
        map_snd_placedFields (first + 1) rest, ← map_snd_placed shape]
      rfl

end

/-- The position of a leaf of fields is the place of a field and a position in its shape. -/
theorem mem_placedFields_iff {first : Nat} {fields : List (String × ValueShape)}
    {position : List Nat} {leaf : FlatLeaf} :
    (position, leaf) ∈ placedFields first fields ↔
      ∃ i below field, fields[i]? = some field ∧ position = (first + i) :: below ∧
        (below, leaf) ∈ field.2.placed := by
  induction fields generalizing first with
  | nil => simp [placedFields]
  | cons field rest ih =>
      rw [placedFields, List.mem_append, ih, List.mem_map]
      constructor
      · rintro (⟨⟨below, l⟩, hmem, heq⟩ | ⟨i, below, other, hget, rfl, hmem⟩)
        · obtain ⟨rfl, rfl⟩ := Prod.mk.inj heq
          exact ⟨0, below, field, rfl, rfl, hmem⟩
        · exact ⟨i + 1, below, other, hget, by rw [Nat.add_assoc, Nat.add_comm 1], hmem⟩
      · rintro ⟨i, below, other, hget, rfl, hmem⟩
        cases i with
        | zero =>
            obtain rfl := Option.some.inj hget
            exact Or.inl ⟨(below, leaf), hmem, rfl⟩
        | succ i =>
            exact Or.inr ⟨i, below, other, hget, by rw [Nat.add_assoc, Nat.add_comm 1], hmem⟩

mutual

/-- The positions of the leaves of a shape increase. -/
theorem sorted_placed : (shape : ValueShape) →
    shape.placed.Pairwise fun a b => List.Lex (· < ·) a.1 b.1
  | leaf l => by
      rw [placed]
      exact List.pairwise_singleton _ _
  | nested type nullable fields => by
      rw [placed]
      exact sorted_placedFields 0 fields

/-- The positions of the leaves of fields increase: within each field, and from field to
field. -/
theorem sorted_placedFields (first : Nat) : (fields : List (String × ValueShape)) →
    (placedFields first fields).Pairwise fun a b => List.Lex (· < ·) a.1 b.1
  | [] => by
      rw [placedFields]
      exact List.Pairwise.nil
  | (name, shape) :: rest => by
      rw [placedFields, List.pairwise_append, List.pairwise_map]
      refine ⟨(sorted_placed shape).imp fun h => .cons h, sorted_placedFields (first + 1) rest, ?_⟩
      intro entry hentry other hother
      obtain ⟨entry, -, rfl⟩ := List.mem_map.mp hentry
      obtain ⟨i, below, field, -, heq, -⟩ := mem_placedFields_iff.mp hother
      rw [heq]
      exact .rel (by omega)

end

end ValueShape

namespace Build

variable {schema : Schema} {bindings : List Binding}

/-! ### Leaves of values -/

/-- `leaf` is the leaf at `position` of a value at `path` with the given type, definition and
projection. A scalar or a list is a leaf itself; the leaves of a single object are those of its
fields that take part. -/
inductive LeafAt (schema : Schema) :
    List String → TypeRef → TypeDef → Projection → List Nat → FlatLeaf → Prop
  | value {path : List String} {type : TypeRef} {definition : TypeDef} {p : Projection} :
      definition.isScalar = true ∨ type.isList = true →
      LeafAt schema path type definition p [] ⟨path, type⟩
  | field {path : List String} {type : TypeRef} {definition child : TypeDef} {p : Projection}
      {i : Nat} {field : FieldDef} {position : List Nat} {leaf : FlatLeaf} :
      definition.isScalar = false → type.isList = false →
      (definition.fields.filter fun field => p.includes field.name)[i]? = some field →
      schema.get? field.type.leafName = some child →
      LeafAt schema (path ++ [field.name]) field.type child (p.child field.name) position leaf →
      LeafAt schema path type definition p (i :: position) leaf

/-- `leaf` is the leaf at `position` of the bindings: the place of a binding, then a position in
its value. -/
def IsLeaf (schema : Schema) (bindings : List Binding) (position : List Nat) (leaf : FlatLeaf) :
    Prop :=
  ∃ i below binding, bindings[i]? = some binding ∧ position = i :: below ∧
    LeafAt schema [binding.name] binding.type binding.definition binding.projection below leaf

/-- The list has the leaves of the bindings, and nothing else, in the order of their positions. -/
structure ListsLeaves (schema : Schema) (bindings : List Binding)
    (leaves : List (List Nat × FlatLeaf)) : Prop where
  /-- The positions increase. -/
  sorted : leaves.Pairwise fun a b => List.Lex (· < ·) a.1 b.1
  /-- The entries are the leaves. -/
  mem_iff : ∀ position leaf, (position, leaf) ∈ leaves ↔ IsLeaf schema bindings position leaf

/-- Members of related lists at the same place are related. -/
theorem exists_getElem?_of_forall₂ {α β : Type} {R : α → β → Prop} {as : List α} {bs : List β}
    (h : List.Forall₂ R as bs) {i : Nat} {b : β} (hb : bs[i]? = some b) :
    ∃ a, as[i]? = some a ∧ R a b := by
  induction h generalizing i with
  | nil => cases hb
  | @cons a b' as bs hab _ ih =>
      cases i with
      | zero =>
          obtain rfl := Option.some.inj hb
          exact ⟨a, rfl, hab⟩
      | succ i => exact ih hb

/-- **The leaves of a shape are those of its value.** Induction on the fuel of the shape: below a
single object, the shapes of its fields stand at the places of the fields that take part. -/
theorem mem_placed_iff {fuel : Nat} :
    ∀ {expanding path : List String} {type : TypeRef} {definition : TypeDef} {p : Projection}
      {shape : ValueShape},
      shapeOf schema fuel expanding path type definition p = .ok shape →
      ∀ {position : List Nat} {leaf : FlatLeaf}, (position, leaf) ∈ shape.placed ↔
        LeafAt schema path type definition p position leaf := by
  -- A leaf has its own position and no other.
  have hleaf : ∀ {path : List String} {type : TypeRef} {definition : TypeDef} {p : Projection},
      definition.isScalar = true ∨ type.isList = true →
      ∀ {position : List Nat} {leaf : FlatLeaf},
        (position, leaf) ∈ (ValueShape.leaf ⟨path, type⟩).placed ↔
          LeafAt schema path type definition p position leaf := by
    intro path type definition p h position leaf
    rw [ValueShape.placed, List.mem_singleton, Prod.mk.injEq]
    constructor
    · rintro ⟨rfl, rfl⟩
      exact .value h
    · intro hat
      cases hat with
      | value _ => exact ⟨rfl, rfl⟩
      | field hscalar hlist => simp [hscalar, hlist] at h
  induction fuel using Nat.strong_induction_on with
  | _ fuel ih =>
      intro expanding path type definition p shape hshape position leaf
      by_cases h : definition.isScalar = true ∨ type.isList = true
      · rw [shapeOf_leaf h] at hshape
        obtain rfl := Except.ok.inj hshape
        exact hleaf h
      rw [not_or, Bool.not_eq_true, Bool.not_eq_true] at h
      obtain ⟨fuel, shapes, rfl, -, -, rfl, hshapes⟩ := exists_shapes_of_shapeOf h.1 h.2 hshape
      have ih := @ih fuel (Nat.lt_succ_self fuel)
      rw [ValueShape.placed, ValueShape.mem_placedFields_iff]
      constructor
      · rintro ⟨i, below, entry, hentry, rfl, hmem⟩
        obtain ⟨field, hfield, -, child, hget, hinner⟩ :=
          exists_getElem?_of_forall₂ hshapes hentry
        rw [Nat.zero_add]
        exact .field h.1 h.2 hfield hget ((ih hinner).mp hmem)
      · intro hat
        cases hat with
        | value hleaf => simp [h] at hleaf
        | @field _ _ _ child _ i field position _ _ _ hfield hget hbelow =>
            obtain ⟨entry, hentry, -, child', hget', hinner⟩ :=
              exists_getElem?_of_forall₂ hshapes.flip hfield
            obtain rfl := Option.some.inj (hget.symm.trans hget')
            exact ⟨i, position, entry, hentry, by rw [Nat.zero_add], (ih hinner).mpr hbelow⟩

/-- The leaves of the shapes of bindings are the leaves of the bindings. -/
theorem listsLeaves_of_shapes {shapes : List (String × ValueShape)}
    (h : bindings.mapM (shapeOfBinding schema) = .ok shapes) :
    ListsLeaves schema bindings (ValueShape.placedFields 0 shapes) := by
  have hshapes := mapM_eq_ok_iff.mp h
  refine ⟨ValueShape.sorted_placedFields 0 shapes, fun position leaf => ?_⟩
  rw [ValueShape.mem_placedFields_iff]
  constructor
  · rintro ⟨i, below, entry, hentry, rfl, hmem⟩
    obtain ⟨binding, hbinding, hmake⟩ := exists_getElem?_of_forall₂ hshapes hentry
    have hshape := (shapeOfBinding_eq_ok_iff.mp hmake).2
    exact ⟨i, below, binding, hbinding, by rw [Nat.zero_add], (mem_placed_iff hshape).mp hmem⟩
  · rintro ⟨i, below, binding, hbinding, rfl, hat⟩
    obtain ⟨entry, hentry, hmake⟩ := exists_getElem?_of_forall₂ hshapes.flip hbinding
    have hshape := (shapeOfBinding_eq_ok_iff.mp hmake).2
    exact ⟨i, below, entry, hentry, by rw [Nat.zero_add], (mem_placed_iff hshape).mpr hat⟩

/-! ### What stops flattening -/

/-- Flattening meets a single object with the given type and projection, while it expands the
fields of the types called `expanding`. -/
inductive Meets (schema : Schema) (bindings : List Binding) :
    List String → TypeDef → Projection → Prop
  | root {binding : Binding} : binding ∈ bindings → binding.definition.isScalar = false →
      binding.type.isList = false →
      Meets schema bindings [] binding.definition binding.projection
  | field {expanding : List String} {type child : TypeDef} {p : Projection} {field : FieldDef} :
      Meets schema bindings expanding type p → type.name ∉ expanding →
      field ∈ type.fields → p.includes field.name = true →
      schema.get? field.type.leafName = some child → child.isScalar = false →
      field.type.isList = false →
      Meets schema bindings (expanding ++ [type.name]) child (p.child field.name)

/-- What stops flattening at an object that it meets: the fields of its type are being expanded
already, its projection names a field that the type lacks, or the type of a field is missing. -/
inductive Stops (schema : Schema) (bindings : List Binding) : GenerationError → Prop
  | cycle {expanding names : List String} {type : TypeDef} {p : Projection} :
      Meets schema bindings expanding type p → cycleAt? expanding type.name = some names →
      Stops schema bindings (.cyclicType names)
  | unknown {expanding : List String} {type : TypeDef} {p : Projection} {name : String} :
      Meets schema bindings expanding type p → p.unknownField? type = some name →
      Stops schema bindings (.unknownField type.name name)
  | missing {expanding : List String} {type : TypeDef} {p : Projection} {field : FieldDef} :
      Meets schema bindings expanding type p → field ∈ type.fields →
      p.includes field.name = true → schema.get? field.type.leafName = none →
      Stops schema bindings (.missingType field.type.leafName (.field type.name field.name))

/-- The types that are being expanded are distinct. They are the type of a binding and types of
the schema, and so is the type that is met. -/
theorem Meets.expanding_bounds {expanding : List String} {type : TypeDef} {p : Projection}
    (h : Meets schema bindings expanding type p) :
    expanding.Nodup ∧
      ∃ root, expanding ++ [type.name] ⊆ root :: schema.types.values.map (·.name) := by
  induction h with
  | @root binding =>
      exact ⟨List.nodup_nil, binding.definition.name, by simp⟩
  | @field expanding type child p field _ hfresh _ _ hget _ _ ih =>
      obtain ⟨hnodup, root, hsub⟩ := ih
      refine ⟨hnodup.append (List.nodup_singleton _) (List.disjoint_singleton.mpr hfresh), root,
        List.append_subset.mpr ⟨hsub, List.cons_subset.mpr ⟨?_, List.nil_subset _⟩⟩⟩
      exact List.mem_cons_of_mem _ (List.mem_map_of_mem (Schema.mem_values_of_get? hget))

/-- Fewer types are being expanded than the fuel allows for, as long as none of them returns. -/
theorem Meets.length_le {expanding : List String} {type : TypeDef} {p : Projection}
    (h : Meets schema bindings expanding type p) (hfresh : type.name ∉ expanding) :
    expanding.length ≤ schema.types.entries.length := by
  obtain ⟨hnodup, root, hsub⟩ := h.expanding_bounds
  have hdistinct : (expanding ++ [type.name]).Nodup :=
    hnodup.append (List.nodup_singleton _) (List.disjoint_singleton.mpr hfresh)
  have hle := List.Nodup.length_le_of_subset hdistinct hsub
  simpa [TypeMap.values] using hle

/-- **Making a shape fails only where something stops flattening.** Induction on the fuel, which
the number of types bounds from below. -/
theorem stops_of_shapeOf {fuel : Nat} {e : GenerationError} :
    ∀ {expanding path : List String} {type : TypeRef} {definition : TypeDef} {p : Projection},
      Meets schema bindings expanding definition p → definition.isScalar = false →
      type.isList = false → schema.types.entries.length < fuel + expanding.length →
      shapeOf schema fuel expanding path type definition p = .error e →
      Stops schema bindings e := by
  induction fuel with
  | zero =>
      intro expanding path type definition p hmeets hscalar hlist hfuel h
      rw [shapeOf.eq_def] at h
      dsimp only at h
      rw [hscalar, hlist, Bool.or_self, if_neg Bool.false_ne_true] at h
      split at h
      · rename_i names hcycle
        obtain rfl := Except.error.inj h
        exact .cycle hmeets hcycle
      · rename_i hcycle
        have hle := hmeets.length_le (cycleAt?_eq_none_iff.mp hcycle)
        omega
  | succ fuel ih =>
      intro expanding path type definition p hmeets hscalar hlist hfuel h
      rw [shapeOf.eq_def] at h
      dsimp only at h
      rw [hscalar, hlist, Bool.or_self, if_neg Bool.false_ne_true] at h
      split at h
      · rename_i names hcycle
        obtain rfl := Except.error.inj h
        exact .cycle hmeets hcycle
      rename_i hcycle
      have hfresh := cycleAt?_eq_none_iff.mp hcycle
      rcases bind_eq_error_iff.mp h with hfields | ⟨fields, hfields, h⟩
      · obtain ⟨name, hunknown, rfl⟩ := Projection.fieldsOf_eq_error_iff.mp hfields
        exact .unknown hmeets hunknown
      obtain ⟨-, rfl⟩ := Projection.fieldsOf_eq_ok_iff.mp hfields
      obtain ⟨field, hfield, h⟩ := exists_of_mapM_eq_error (eq_error_of_bind_pure h)
      obtain ⟨hdeclared, hincludes⟩ := List.mem_filter.mp hfield
      cases hget : schema.get? field.type.leafName with
      | none =>
          rw [Augment.typeNamed, hget] at h
          obtain rfl := Except.error.inj h
          exact .missing hmeets hdeclared hincludes hget
      | some child =>
          rw [Augment.typeNamed, hget] at h
          have hshape := eq_error_of_bind_pure h
          by_cases hleaf : child.isScalar = true ∨ field.type.isList = true
          · rw [shapeOf_leaf hleaf] at hshape
            cases hshape
          rw [not_or, Bool.not_eq_true, Bool.not_eq_true] at hleaf
          refine ih (.field hmeets hfresh hdeclared hincludes hget hleaf.1 hleaf.2) hleaf.1
            hleaf.2 ?_ hshape
          rw [List.length_append, List.length_singleton]
          omega

/-- Making the shapes of bindings fails only where something stops flattening. -/
theorem stops_of_mapM_shapeOfBinding {e : GenerationError}
    (h : bindings.mapM (shapeOfBinding schema) = .error e) : Stops schema bindings e := by
  obtain ⟨binding, hbinding, h⟩ := exists_of_mapM_eq_error h
  have hshape := eq_error_of_bind_pure h
  by_cases hleaf : binding.definition.isScalar = true ∨ binding.type.isList = true
  · rw [shapeOf_leaf hleaf] at hshape
    cases hshape
  rw [not_or, Bool.not_eq_true, Bool.not_eq_true] at hleaf
  exact stops_of_shapeOf (.root hbinding hleaf.1 hleaf.2) hleaf.1 hleaf.2 (by simp) hshape

/-- Where the bindings have shapes, so has every object that flattening meets. -/
theorem Meets.exists_shape {shapes : List (String × ValueShape)}
    (h : bindings.mapM (shapeOfBinding schema) = .ok shapes) {expanding : List String}
    {definition : TypeDef} {p : Projection}
    (hmeets : Meets schema bindings expanding definition p) :
    definition.isScalar = false ∧ ∃ fuel path type shape, type.isList = false ∧
      shapeOf schema fuel expanding path type definition p = .ok shape := by
  induction hmeets with
  | @root binding hbinding hscalar hlist =>
      obtain ⟨entry, -, hmake⟩ := exists_mem_of_mapM h hbinding
      have hshape := (shapeOfBinding_eq_ok_iff.mp hmake).2
      exact ⟨hscalar, _, _, binding.type, entry.2, hlist, hshape⟩
  | @field expanding definition child p field _ _ hfield hincludes hget hscalar hlist ih =>
      obtain ⟨hparent, fuel, path, type, shape, hsingle, hshape⟩ := ih
      obtain ⟨fuel, shapes, -, -, -, -, hshapes⟩ :=
        exists_shapes_of_shapeOf hparent hsingle hshape
      obtain ⟨entry, -, -, child', hget', hinner⟩ :=
        exists_left_of_forall₂ hshapes.flip (List.mem_filter.mpr ⟨hfield, hincludes⟩)
      obtain rfl := Option.some.inj (hget.symm.trans hget')
      exact ⟨hscalar, fuel, _, field.type, entry.2, hlist, hinner⟩

/-- Nothing stops flattening where the bindings have shapes. -/
theorem not_stops_of_mapM_shapeOfBinding {shapes : List (String × ValueShape)}
    (h : bindings.mapM (shapeOfBinding schema) = .ok shapes) {e : GenerationError} :
    ¬Stops schema bindings e := by
  -- An object with a shape is none at which flattening stops.
  have hlevel : ∀ {expanding : List String} {definition : TypeDef} {p : Projection},
      Meets schema bindings expanding definition p →
      definition.name ∉ expanding ∧ p.unknownField? definition = none ∧
        ∀ field ∈ definition.fields, p.includes field.name = true →
          schema.get? field.type.leafName ≠ none := by
    intro expanding definition p hmeets
    obtain ⟨hscalar, fuel, path, type, shape, hlist, hshape⟩ := hmeets.exists_shape h
    obtain ⟨_, shapes, -, hfresh, hunknown, -, hshapes⟩ :=
      exists_shapes_of_shapeOf hscalar hlist hshape
    refine ⟨hfresh, hunknown, fun field hfield hincludes hnone => ?_⟩
    obtain ⟨_, -, -, child, hget, -⟩ :=
      exists_left_of_forall₂ hshapes.flip (List.mem_filter.mpr ⟨hfield, hincludes⟩)
    rw [hnone] at hget
    cases hget
  intro hstops
  cases hstops with
  | cycle hmeets hcycle =>
      rw [cycleAt?_eq_none_iff.mpr (hlevel hmeets).1] at hcycle
      cases hcycle
  | unknown hmeets hunknown =>
      rw [(hlevel hmeets).2.1] at hunknown
      cases hunknown
  | missing hmeets hfield hincludes hget => exact (hlevel hmeets).2.2 _ hfield hincludes hget

/-! ### Names of leaves -/

/-- The name of a leaf among all leaves: the last name on its path, if no other leaf has the same
there, and else the whole path, joined by underscores. -/
def flatName (leaves : List (List Nat × FlatLeaf)) (entry : List Nat × FlatLeaf) : String :=
  if ∃ other ∈ leaves, other.1 ≠ entry.1 ∧ leafFieldName other.2 = leafFieldName entry.2 then
    "_".intercalate entry.2.path
  else leafFieldName entry.2

/-- The parameter for the leaf in place `i` of all leaves. -/
def flatParameter (leaves : List (List Nat × FlatLeaf)) (i : Nat) (entry : List Nat × FlatLeaf) :
    Parameter where
  name := flatName leaves entry
  type := .ofRef entry.2.type
  isLast := decide (i + 1 = leaves.length)

/-- Of leaves at distinct positions, more than one is called like `entry` exactly when another one
is. -/
theorem one_lt_count_iff {leaves : List (List Nat × FlatLeaf)}
    (hnodup : (leaves.map Prod.fst).Nodup) {entry : List Nat × FlatLeaf} (h : entry ∈ leaves) :
    1 < ((leaves.map Prod.snd).map leafFieldName).count (leafFieldName entry.2) ↔
      ∃ other ∈ leaves, other.1 ≠ entry.1 ∧ leafFieldName other.2 = leafFieldName entry.2 := by
  obtain ⟨before, after, rfl⟩ := List.append_of_mem h
  rw [List.map_append, List.map_cons, List.nodup_append, List.nodup_cons] at hnodup
  obtain ⟨-, ⟨hafter, -⟩, hbefore⟩ := hnodup
  have hcount : ∀ others : List (List Nat × FlatLeaf),
      0 < ((others.map Prod.snd).map leafFieldName).count (leafFieldName entry.2) ↔
        ∃ other ∈ others, leafFieldName other.2 = leafFieldName entry.2 := by
    intro others
    rw [List.count_pos_iff, List.map_map, List.mem_map]
    rfl
  have hsplit : 1 < (((before ++ entry :: after).map Prod.snd).map leafFieldName).count
        (leafFieldName entry.2) ↔
      (∃ other ∈ before, leafFieldName other.2 = leafFieldName entry.2) ∨
        ∃ other ∈ after, leafFieldName other.2 = leafFieldName entry.2 := by
    rw [← hcount, ← hcount]
    simp only [List.map_append, List.map_cons, List.count_append, List.count_cons_self]
    omega
  rw [hsplit]
  constructor
  · rintro (⟨other, hother, hname⟩ | ⟨other, hother, hname⟩)
    · exact ⟨other, List.mem_append_left _ hother,
        hbefore _ (List.mem_map_of_mem hother) _ List.mem_cons_self, hname⟩
    · refine ⟨other, List.mem_append_right _ (List.mem_cons_of_mem _ hother), ?_, hname⟩
      exact fun heq => hafter (heq ▸ List.mem_map_of_mem hother)
  · rintro ⟨other, hother, hne, hname⟩
    rcases List.mem_append.mp hother with hmem | hmem
    · exact Or.inl ⟨other, hmem, hname⟩
    · rcases List.mem_cons.mp hmem with rfl | hmem
      · exact absurd rfl hne
      · exact Or.inr ⟨other, hmem, hname⟩

/-- The positions of listed leaves are distinct. -/
theorem ListsLeaves.nodup_positions {leaves : List (List Nat × FlatLeaf)}
    (h : ListsLeaves schema bindings leaves) : (leaves.map Prod.fst).Nodup := by
  rw [List.Nodup, List.pairwise_map]
  refine h.sorted.imp fun hlex heq => ?_
  rw [heq] at hlex
  exact List.lt_irrefl _ hlex

/-- The leaves of bindings can be listed in one way only. -/
theorem ListsLeaves.unique {leaves others : List (List Nat × FlatLeaf)}
    (h : ListsLeaves schema bindings leaves) (hothers : ListsLeaves schema bindings others) :
    leaves = others := by
  have hperm : leaves.Perm others := by
    refine (List.perm_ext_iff_of_nodup (List.Nodup.of_map _ h.nodup_positions)
      (List.Nodup.of_map _ hothers.nodup_positions)).mpr fun entry => ?_
    rw [h.mem_iff, hothers.mem_iff]
  refine hperm.eq_of_pairwise ?_ h.sorted hothers.sorted
  intro entry other _ _ hlt hgt
  exact absurd hgt (List.lt_asymm hlt)

/-- The name of a listed leaf is the one that flattening gives to it. -/
theorem ListsLeaves.leafParameterName_eq {leaves : List (List Nat × FlatLeaf)}
    (h : ListsLeaves schema bindings leaves) {entry : List Nat × FlatLeaf}
    (hentry : entry ∈ leaves) :
    leafParameterName (leaves.map Prod.snd) entry.2 = flatName leaves entry := by
  rw [leafParameterName, flatName]
  exact if_congr (one_lt_count_iff h.nodup_positions hentry) rfl rfl

/-- The names of listed leaves are those that flattening gives to them. -/
theorem ListsLeaves.map_leafParameterName {leaves : List (List Nat × FlatLeaf)}
    (h : ListsLeaves schema bindings leaves) :
    (leaves.map Prod.snd).map (leafParameterName (leaves.map Prod.snd)) =
      leaves.map (flatName leaves) := by
  rw [List.map_map]
  exact List.map_congr_left fun entry hentry => h.leafParameterName_eq hentry

/-- The parameters of listed leaves are those that flattening makes of them. -/
theorem ListsLeaves.markLast_eq {leaves : List (List Nat × FlatLeaf)}
    (h : ListsLeaves schema bindings leaves) :
    Parameter.markLast ((leaves.map Prod.snd).map fun leaf =>
        .of (leafParameterName (leaves.map Prod.snd) leaf) leaf.type) =
      leaves.mapIdx (flatParameter leaves) := by
  refine List.ext_getElem? fun i => ?_
  rw [Parameter.getElem?_markLast, List.map_map, List.getElem?_map, Option.map_map,
    List.getElem?_mapIdx]
  refine Option.map_congr fun entry hentry => ?_
  have hname := h.leafParameterName_eq (List.mem_of_getElem? hentry)
  simp [flatParameter, Parameter.of, hname]

/-- The name that is found to be repeated is the first one that stands before, or was seen. -/
theorem exists_of_firstRepeated?_eq_some {seen names : List String} {name : String}
    (h : firstRepeated? seen names = some name) :
    ∃ before after, names = before ++ name :: after ∧
      (before.Nodup ∧ ∀ other ∈ before, other ∉ seen) ∧ (name ∈ seen ∨ name ∈ before) := by
  induction names generalizing seen with
  | nil => cases h
  | cons first names ih =>
      rw [firstRepeated?] at h
      split at h
      · rename_i hseen
        obtain rfl := Option.some.inj h
        exact ⟨[], names, rfl, ⟨List.nodup_nil, fun _ hmem => absurd hmem List.not_mem_nil⟩,
          Or.inl hseen⟩
      · rename_i hfresh
        obtain ⟨before, after, rfl, hbefore, hname⟩ := ih h
        refine ⟨first :: before, after, rfl,
          nodup_cons_and_notMem_iff.mpr ⟨hfresh, hbefore⟩, ?_⟩
        rcases hname with hname | hname
        · rcases List.mem_cons.mp hname with rfl | hseen
          · exact Or.inr List.mem_cons_self
          · exact Or.inl hseen
        · exact Or.inr (List.mem_cons_of_mem _ hname)

/-- Leaves with equal names have no parameters: the first name that is repeated is reported. -/
theorem exists_of_leafParameters_eq_error {operation : String} {leaves : List FlatLeaf}
    {e : GenerationError} (h : leafParameters operation leaves = .error e) :
    ∃ name before after, e = .duplicateParameter operation name ∧
      leaves.map (leafParameterName leaves) = before ++ name :: after ∧ before.Nodup ∧
        name ∈ before := by
  rw [leafParameters] at h
  split at h
  · rename_i name hname
    obtain ⟨before, after, heq, hbefore, hrepeated⟩ := exists_of_firstRepeated?_eq_some hname
    exact ⟨name, before, after, (Except.error.inj h).symm, heq, hbefore.1,
      hrepeated.resolve_left List.not_mem_nil⟩
  · cases h

/-- Leaves with distinct names have parameters, and these have the names of the leaves. -/
theorem ListsLeaves.leafParameters_eq_ok {leaves : List (List Nat × FlatLeaf)}
    (h : ListsLeaves schema bindings leaves) (operation : String)
    (hnodup : (leaves.map (flatName leaves)).Nodup) :
    leafParameters operation (leaves.map Prod.snd) = .ok (leaves.mapIdx (flatParameter leaves)) ∧
      ((leaves.mapIdx (flatParameter leaves)).map (·.name)).Nodup := by
  rw [← h.map_leafParameterName] at hnodup
  rw [← h.markLast_eq]
  refine ⟨leafParameters_eq_ok_iff.mpr ⟨hnodup, rfl⟩, ?_⟩
  rw [Parameter.map_name_markLast, List.map_map]
  exact hnodup

/-- Leaves with equal names have no parameters. -/
theorem ListsLeaves.leafParameters_eq_error {leaves : List (List Nat × FlatLeaf)}
    (h : ListsLeaves schema bindings leaves) (operation : String)
    (hrepeats : ¬(leaves.map (flatName leaves)).Nodup) :
    ∃ name before after, leaves.map (flatName leaves) = before ++ name :: after ∧
      before.Nodup ∧ name ∈ before ∧
      leafParameters operation (leaves.map Prod.snd) =
        .error (.duplicateParameter operation name) := by
  rw [← h.map_leafParameterName] at hrepeats ⊢
  cases hparams : leafParameters operation (leaves.map Prod.snd) with
  | ok params => exact absurd (leafParameters_eq_ok_iff.mp hparams).1 hrepeats
  | error e =>
      obtain ⟨name, before, after, rfl, heq, hnodup, hmem⟩ :=
        exists_of_leafParameters_eq_error hparams
      exact ⟨name, before, after, heq, hnodup, hmem, rfl⟩

end Build

open Build

/-- **The flattened parameters are the leaves, in order and under their names.** Where something
stops flattening, it fails for such a reason. Elsewhere the leaves can be listed in depth-first
order of declaration. If their names are distinct, there is one parameter for each leaf, with the
name and the rendered type of the leaf, and the last one is marked as last. If they are not,
flattening fails, and reports the first name that stands there before. -/
theorem flattenVariables_exact (schema : Schema) (operation : String) (bindings : List Binding) :
    ((∃ e, Stops schema bindings e) →
      ∃ e, Stops schema bindings e ∧ flattenVariables schema operation bindings = .error e) ∧
    ((∀ e, ¬Stops schema bindings e) → ∃ leaves, ListsLeaves schema bindings leaves ∧
      ((leaves.map (flatName leaves)).Nodup →
        ∃ flat, flattenVariables schema operation bindings = .ok flat ∧
          flat.parameters = leaves.mapIdx (flatParameter leaves) ∧
          (flat.parameters.map (·.name)).Nodup) ∧
      (¬(leaves.map (flatName leaves)).Nodup →
        ∃ name before after, leaves.map (flatName leaves) = before ++ name :: after ∧
          before.Nodup ∧ name ∈ before ∧
          flattenVariables schema operation bindings =
            .error (.duplicateParameter operation name))) := by
  cases hshapes : bindings.mapM (shapeOfBinding schema) with
  | error e =>
      have hstops := stops_of_mapM_shapeOfBinding hshapes
      refine ⟨fun _ => ⟨e, hstops, ?_⟩, fun hfree => absurd hstops (hfree e)⟩
      rw [flattenVariables, hshapes]
      rfl
  | ok shapes =>
      have hfree : ¬∃ e, Stops schema bindings e :=
        not_exists.mpr fun _ => not_stops_of_mapM_shapeOfBinding hshapes
      refine ⟨fun hstops => absurd hstops hfree, fun _ => ?_⟩
      have hlists := listsLeaves_of_shapes hshapes
      have hsnd := ValueShape.map_snd_placedFields 0 shapes
      generalize ValueShape.placedFields 0 shapes = leaves at hlists hsnd
      have hflat : flattenVariables schema operation bindings =
          (fun parameters => { parameters, shapes }) <$>
            leafParameters operation (leaves.map Prod.snd) := by
        rw [flattenVariables, hshapes, hsnd]
        rfl
      refine ⟨leaves, hlists, fun hnodup => ?_, fun hrepeats => ?_⟩
      · obtain ⟨hparameters, hdistinct⟩ := hlists.leafParameters_eq_ok operation hnodup
        exact ⟨_, hflat.trans (map_eq_ok_iff.mpr ⟨_, hparameters, rfl⟩), rfl, hdistinct⟩
      · obtain ⟨name, before, after, heq, hdistinct, hmem, herror⟩ :=
          hlists.leafParameters_eq_error operation hrepeats
        exact ⟨name, before, after, heq, hdistinct, hmem,
          hflat.trans (map_eq_error_iff.mpr herror)⟩

/-- Films with the studios that make them, and the tags of both. -/
def studioSchema : Schema where
  types := .ofList (standardScalars.map .givenScalar ++ [
    { name := "FilmInput", kind := .input, fields := [
        { name := "id", type := .named "ID" false },
        { name := "studio", type := .named "StudioInput" true },
        { name := "tags", type := .list (.named "TagInput" false) false }] },
    { name := "StudioInput", kind := .input, fields := [
        { name := "id", type := .named "ID" false },
        { name := "name", type := .named "String" true },
        { name := "tags", type := .list (.named "TagInput" false) false }] },
    { name := "TagInput", kind := .input, fields := [
        { name := "text", type := .named "String" false }] }])
  query := { name := "Query" }
  mutation := { name := "Mutation", fields := [
    { name := "add", type := .named "Int" true, arguments := [
        { name := "film", type := .named "FilmInput" false }] }] }

/-- A film of which `tags` is not wanted, and a value of a scalar type called `other`. -/
def addFilm (other : String) : Operation where
  name := "Add"
  kind := .mutation
  vars := [{ name := "film", type := .named "FilmInput" false, pick := some ["studio", "id"] },
    { name := other, type := .named "ID" false }]
  selections := [.field "add" none []]

/-- Two leaves end in the same name, and so are called after their paths, one of which is the name
of a third leaf when a variable is called so. -/
theorem flattenVariables_exact_addFilm :
    (∃ bindings leaves flat, variableBindings studioSchema (addFilm "code") = .ok bindings ∧
      ListsLeaves studioSchema bindings leaves ∧
      flattenVariables studioSchema "Add" bindings = .ok flat ∧
      flat.parameters = leaves.mapIdx (flatParameter leaves) ∧
      flat.parameters.map (·.name) = ["film_id", "film_studio_id", "name", "tags", "code"]) ∧
    ∃ bindings leaves, variableBindings studioSchema (addFilm "film_id") = .ok bindings ∧
      ListsLeaves studioSchema bindings leaves ∧ ¬(leaves.map (flatName leaves)).Nodup ∧
      flattenVariables studioSchema "Add" bindings =
        .error (.duplicateParameter "Add" "film_id") := by
  constructor
  · obtain ⟨bindings, hbindings⟩ : ∃ bindings,
        variableBindings studioSchema (addFilm "code") = .ok bindings := ⟨_, rfl⟩
    obtain ⟨flat, hflat, hnames⟩ : ∃ flat,
        flattenVariables studioSchema "Add" bindings = .ok flat ∧ flat.parameters.map (·.name) =
          ["film_id", "film_studio_id", "name", "tags", "code"] := by
      cases hbindings
      exact ⟨_, rfl, rfl⟩
    obtain ⟨hstopped, hexact⟩ := flattenVariables_exact studioSchema "Add" bindings
    have hfree : ∀ e, ¬Stops studioSchema bindings e := by
      intro e hstops
      obtain ⟨_, -, hfails⟩ := hstopped ⟨e, hstops⟩
      cases hflat.symm.trans hfails
    obtain ⟨leaves, hlists, hok, herror⟩ := hexact hfree
    by_cases hnodup : (leaves.map (flatName leaves)).Nodup
    · obtain ⟨flat', hflat', hparameters, -⟩ := hok hnodup
      obtain rfl := Except.ok.inj (hflat.symm.trans hflat')
      exact ⟨bindings, leaves, flat, hbindings, hlists, hflat, hparameters, hnames⟩
    · obtain ⟨name, before, after, -, -, -, hfails⟩ := herror hnodup
      cases hflat.symm.trans hfails
  · obtain ⟨bindings, hbindings⟩ : ∃ bindings,
        variableBindings studioSchema (addFilm "film_id") = .ok bindings := ⟨_, rfl⟩
    have hfails : flattenVariables studioSchema "Add" bindings =
        .error (.duplicateParameter "Add" "film_id") := by
      cases hbindings
      rfl
    obtain ⟨hstopped, hexact⟩ := flattenVariables_exact studioSchema "Add" bindings
    have hfree : ∀ e, ¬Stops studioSchema bindings e := by
      -- What stops flattening is never a repeated name.
      intro e hstops
      obtain ⟨_, hother, herror⟩ := hstopped ⟨e, hstops⟩
      obtain rfl := Except.error.inj (hfails.symm.trans herror)
      cases hother
    obtain ⟨leaves, hlists, hok, -⟩ := hexact hfree
    refine ⟨bindings, leaves, hbindings, hlists, fun hnodup => ?_, hfails⟩
    obtain ⟨flat, hflat, -⟩ := hok hnodup
    cases hfails.symm.trans hflat

end ClientSdk
