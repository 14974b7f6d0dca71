import ClientSdk.Proofs.Build.Leaves
import ClientSdk.Proofs.Build.Model
import Mathlib.Logic.Relation

/-!
# Building Ends

The search for nested classes runs as long as a type is in its queue, and flattening expands
objects as long as it meets them, whatever cycles the schema has. Both are defined with a number
of steps that bounds them. This module shows that the bounds are never met. The search queues each
type once, and flattening never expands a type inside itself, so without any bound both end with
the results that they have with it.

A cycle that is reported is a cycle of the schema: along single-valued fields that take part, one
after the other, the types lead back to the first of them.

## Main definitions

* `Visits`, `Ends`: the search without a bound, step by step, and its results.
* `SearchEnds`, `ExpansionEnds`: the search and flattening end, and within which bounds.
* `SingleChain`, `IsCycle`: a chain of single-valued fields that take part, and one that returns.

## Main results

* `innerClasses_eq_iff_ends`: the nested classes are the result of the unbounded search.
* `shapeOf_eq_of_le`: flattening has the same result with any number of levels from that of the
  types of objects on.
* `isCycle_of_innerClasses`, `isCycle_of_flattenVariables`: reported cycles are cycles.
* `ofOperation_ends`: building ends, and what it reports as cycles.
-/

namespace ClientSdk

/-- The types of objects of a schema. -/
def Schema.objects (schema : Schema) : List TypeDef :=
  schema.types.values.filter fun type => !type.isScalar

/-- A type that is found and is no scalar is a type of objects. -/
theorem Schema.mem_objects_of_get? {schema : Schema} {name : String} {type : TypeDef}
    (hget : schema.get? name = some type) (hscalar : type.isScalar = false) :
    type ∈ schema.objects :=
  List.mem_filter.mpr ⟨mem_values_of_get? hget, by rw [hscalar]; rfl⟩

namespace Build

variable {schema : Schema} {operation : String} {policy : ListPolicy} {bindings : List Binding}

/-- Distinct names of types of objects are at most as many as there are types of objects. -/
theorem length_le_objects {names : List String} (hnodup : names.Nodup)
    (hsub : names ⊆ schema.objects.map (·.name)) : names.length ≤ schema.objects.length := by
  have hle := List.Nodup.length_le_of_subset hnodup hsub
  rwa [List.length_map] at hle

/-! ### The search without a bound -/

/-- The search has followed the types `done`, in this order, and is in `state`. It starts with the
types of the bindings, and goes on with the next type of its queue as long as there is one. -/
inductive Visits (schema : Schema) (operation : String) (policy : ListPolicy)
    (bindings : List Binding) : List QueuedType → Discovery → Prop
  | start {state : Discovery} : reachRoots schema operation bindings = .ok state →
      Visits schema operation policy bindings [] state
  | follow {done queue : List QueuedType} {queued : QueuedType} {fields : List FieldDef}
      {state next : Discovery} : Visits schema operation policy bindings done state →
      state.queue = queued :: queue →
      queued.projection.fieldsOf queued.definition = .ok fields →
      fields.foldlM (followField schema operation policy queued) { state with queue := queue } =
        .ok next →
      Visits schema operation policy bindings (done ++ [queued]) next

/-- The search comes to an end: with the classes of the types that it has followed once its queue
is empty, or with the failure of a step. -/
inductive Ends (schema : Schema) (operation : String) (policy : ListPolicy)
    (bindings : List Binding) : Except GenerationError (List ClassDecl) → Prop
  | empty {done : List QueuedType} {state : Discovery} :
      Visits schema operation policy bindings done state → state.queue = [] →
      Ends schema operation policy bindings (.ok (done.map QueuedType.decl))
  | roots {e : GenerationError} : reachRoots schema operation bindings = .error e →
      Ends schema operation policy bindings (.error e)
  | fields {done queue : List QueuedType} {queued : QueuedType} {state : Discovery}
      {e : GenerationError} : Visits schema operation policy bindings done state →
      state.queue = queued :: queue →
      queued.projection.fieldsOf queued.definition = .error e →
      Ends schema operation policy bindings (.error e)
  | follow {done queue : List QueuedType} {queued : QueuedType} {fields : List FieldDef}
      {state : Discovery} {e : GenerationError} :
      Visits schema operation policy bindings done state → state.queue = queued :: queue →
      queued.projection.fieldsOf queued.definition = .ok fields →
      fields.foldlM (followField schema operation policy queued) { state with queue := queue } =
        .error e →
      Ends schema operation policy bindings (.error e)

/-- **Each step of the search** keeps what the search has established. -/
theorem Visits.searching {done : List QueuedType} {state : Discovery}
    (h : Visits schema operation policy bindings done state) :
    Searching schema policy bindings done state ∧
      Rooted schema bindings (done ++ state.queue) := by
  induction h with
  | start hroots => exact rooted_of_reachRoots policy hroots
  | @follow done queue queued fields state next _ hqueue hfields hfold ih =>
      obtain ⟨hsearch, hrooted⟩ := ih
      obtain ⟨-, rfl⟩ := Projection.fieldsOf_eq_ok_iff.mp hfields
      obtain ⟨hnext, hgrow, -⟩ := hsearch.next hrooted hqueue hfold
      exact ⟨hnext, hrooted.mono hgrow⟩

/-- Fewer types have been followed than the bound allows for, as long as one is in the queue. -/
theorem Visits.length_lt {done queue : List QueuedType} {queued : QueuedType} {state : Discovery}
    (h : Visits schema operation policy bindings done state)
    (hqueue : state.queue = queued :: queue) :
    done.length < bindings.length + schema.types.entries.length := by
  have hle := h.searching.1.length_le
  rw [List.length_append, hqueue, List.length_cons] at hle
  omega

/-- The search queues types of objects. -/
theorem Visits.names_subset (hresolved : Resolved schema bindings) {done : List QueuedType}
    {state : Discovery} (h : Visits schema operation policy bindings done state) :
    (done ++ state.queue).map QueuedType.name ⊆ schema.objects.map (·.name) := by
  intro name hname
  obtain ⟨queued, hqueued, rfl⟩ := List.mem_map.mp hname
  have hreached := h.searching.1.reached queued hqueued
  obtain ⟨key, hget⟩ := hreached.exists_get? hresolved
  exact List.mem_map_of_mem (Schema.mem_objects_of_get? hget hreached.isScalar_eq_false)

/-- With an empty queue no class is added, whatever the bound. -/
theorem followQueue_nil {fuel : Nat} {state : Discovery} (hqueue : state.queue = []) :
    followQueue schema operation policy fuel state = .ok [] := by
  cases fuel with
  | zero => rfl
  | succ fuel => rw [followQueue, hqueue]

/-- Following the next type of the queue adds its class. -/
theorem followQueue_succ {fuel : Nat} {state next : Discovery} {queued : QueuedType}
    {queue : List QueuedType} {fields : List FieldDef} (hqueue : state.queue = queued :: queue)
    (hfields : queued.projection.fieldsOf queued.definition = .ok fields)
    (hfold : fields.foldlM (followField schema operation policy queued)
      { state with queue := queue } = .ok next) :
    followQueue schema operation policy (fuel + 1) state =
      (queued.decl :: ·) <$> followQueue schema operation policy fuel next := by
  obtain ⟨-, rfl⟩ := Projection.fieldsOf_eq_ok_iff.mp hfields
  rw [followQueue, hqueue]
  dsimp only
  rw [hfields]
  change (_ >>= fun state => (followQueue schema operation policy fuel state >>= fun classes =>
    pure (queued.decl :: classes))) = _
  rw [hfold, map_eq_pure_bind]
  rfl

/-- **The bounded search goes the way of the unbounded one**: it gives the classes of the types
that have been followed, and then what the rest of its steps give. -/
theorem Visits.innerClasses_eq {done : List QueuedType} {state : Discovery}
    (h : Visits schema operation policy bindings done state) :
    innerClasses schema operation bindings policy =
      (done.map QueuedType.decl ++ ·) <$> followQueue schema operation policy
        (bindings.length + schema.types.entries.length - done.length) state := by
  induction h with
  | start hroots =>
      rw [innerClasses, hroots]
      exact (id_map _).symm
  | @follow done queue queued fields state next hvisits hqueue hfields hfold ih =>
      obtain ⟨fuel, hfuel⟩ : ∃ fuel,
          bindings.length + schema.types.entries.length - done.length = fuel + 1 :=
        Nat.exists_eq_succ_of_ne_zero (Nat.sub_ne_zero_of_lt (hvisits.length_lt hqueue))
      have hrest : bindings.length + schema.types.entries.length - (done ++ [queued]).length =
          fuel := by
        rw [List.length_append, List.length_singleton, ← Nat.sub_sub, hfuel, Nat.add_sub_cancel]
      rw [ih, hfuel, hrest, followQueue_succ hqueue hfields hfold, Functor.map_map]
      simp

/-- The result of the unbounded search is that of the bounded one. -/
theorem Ends.innerClasses_eq {result : Except GenerationError (List ClassDecl)}
    (h : Ends schema operation policy bindings result) :
    innerClasses schema operation bindings policy = result := by
  cases h with
  | empty hvisits hqueue =>
      rw [hvisits.innerClasses_eq, followQueue_nil hqueue]
      exact congrArg Except.ok (List.append_nil _)
  | roots hroots =>
      rw [innerClasses, hroots]
      rfl
  | fields hvisits hqueue hfields =>
      obtain ⟨fuel, hfuel⟩ :=
        Nat.exists_eq_succ_of_ne_zero (Nat.sub_ne_zero_of_lt (hvisits.length_lt hqueue))
      rw [hvisits.innerClasses_eq, hfuel, followQueue, hqueue, map_eq_error_iff]
      exact bind_eq_error_iff.mpr (Or.inl hfields)
  | follow hvisits hqueue hfields hfold =>
      obtain ⟨fuel, hfuel⟩ :=
        Nat.exists_eq_succ_of_ne_zero (Nat.sub_ne_zero_of_lt (hvisits.length_lt hqueue))
      rw [hvisits.innerClasses_eq, hfuel, followQueue, hqueue, map_eq_error_iff]
      exact bind_eq_error_iff.mpr
        (Or.inr ⟨_, hfields, bind_eq_error_iff.mpr (Or.inl hfold)⟩)

/-- **The unbounded search ends**, however far it has come. Induction on how many types can still
be followed, since each of them is followed once. -/
theorem Visits.exists_ends {steps : Nat} :
    ∀ {done : List QueuedType} {state : Discovery},
      Visits schema operation policy bindings done state →
      bindings.length + schema.types.entries.length ≤ steps + done.length →
      ∃ result, Ends schema operation policy bindings result := by
  induction steps with
  | zero =>
      intro done state h hsteps
      cases hqueue : state.queue with
      | nil => exact ⟨_, .empty h hqueue⟩
      | cons queued queue =>
          have hlt := h.length_lt hqueue
          omega
  | succ steps ih =>
      intro done state h hsteps
      cases hqueue : state.queue with
      | nil => exact ⟨_, .empty h hqueue⟩
      | cons queued queue =>
          cases hfields : queued.projection.fieldsOf queued.definition with
          | error e => exact ⟨_, .fields h hqueue hfields⟩
          | ok fields =>
              cases hfold : fields.foldlM (followField schema operation policy queued)
                { state with queue := queue } with
              | error e => exact ⟨_, .follow h hqueue hfields hfold⟩
              | ok next =>
                  refine ih (.follow h hqueue hfields hfold) ?_
                  rw [List.length_append, List.length_singleton]
                  omega

/-- **The nested classes are the result of the unbounded search**, and there is no other. -/
theorem innerClasses_eq_iff_ends {result : Except GenerationError (List ClassDecl)} :
    innerClasses schema operation bindings policy = result ↔
      Ends schema operation policy bindings result := by
  refine ⟨fun h => ?_, Ends.innerClasses_eq⟩
  have hends : ∃ result, Ends schema operation policy bindings result := by
    cases hroots : reachRoots schema operation bindings with
    | error e => exact ⟨_, .roots hroots⟩
    | ok state => exact (Visits.start hroots).exists_ends (Nat.le_refl _)
  obtain ⟨result', hresult'⟩ := hends
  exact h ▸ hresult'.innerClasses_eq ▸ hresult'

/-- The search for the nested classes of bindings ends, having queued each type once. -/
structure SearchEnds (schema : Schema) (operation : String) (policy : ListPolicy)
    (bindings : List Binding) : Prop where
  /-- The types that have been followed and those in the queue are all that have been queued. No
  two of them have one name. -/
  nodup : ∀ done state, Visits schema operation policy bindings done state →
    ((done ++ state.queue).map QueuedType.name).Nodup
  /-- There are no more of them than there are types of objects. -/
  length_le : ∀ done state, Visits schema operation policy bindings done state →
    (done ++ state.queue).length ≤ schema.objects.length
  /-- The nested classes are the result of the search. -/
  eq_iff : ∀ result, innerClasses schema operation bindings policy = result ↔
    Ends schema operation policy bindings result

/-- The search ends for bindings with types of the schema. -/
theorem searchEnds (hresolved : Resolved schema bindings) (operation : String)
    (policy : ListPolicy) : SearchEnds schema operation policy bindings where
  nodup _ _ h := h.searching.1.nodup
  length_le _ _ h := by
    have hle := length_le_objects h.searching.1.nodup (h.names_subset hresolved)
    rwa [List.length_map] at hle
  eq_iff _ := innerClasses_eq_iff_ends

/-! ### Expansion without a bound -/

/-- The types that are being expanded, and the one that is met, are types of objects. -/
theorem Meets.names_subset (hresolved : Resolved schema bindings) {expanding : List String}
    {type : TypeDef} {p : Projection} (h : Meets schema bindings expanding type p) :
    expanding ++ [type.name] ⊆ schema.objects.map (·.name) := by
  have hmem : ∀ {name : String} {type : TypeDef}, schema.get? name = some type →
      type.isScalar = false → [type.name] ⊆ schema.objects.map (·.name) := fun hget hscalar =>
    List.cons_subset.mpr
      ⟨List.mem_map_of_mem (Schema.mem_objects_of_get? hget hscalar), List.nil_subset _⟩
  induction h with
  | root hbinding hscalar _ => exact hmem (hresolved _ hbinding) hscalar
  | field _ _ _ _ hget hscalar _ ih => exact List.append_subset.mpr ⟨ih, hmem hget hscalar⟩

/-- As long as the type that is met is not being expanded, fewer types are being expanded than
there are types of objects. -/
theorem Meets.length_lt (hresolved : Resolved schema bindings) {expanding : List String}
    {type : TypeDef} {p : Projection} (h : Meets schema bindings expanding type p)
    (hfresh : type.name ∉ expanding) : expanding.length < schema.objects.length := by
  have hdistinct : (expanding ++ [type.name]).Nodup :=
    h.expanding_bounds.1.append (List.nodup_singleton _) (List.disjoint_singleton.mpr hfresh)
  have hle := length_le_objects hdistinct (h.names_subset hresolved)
  rwa [List.length_append, List.length_singleton] at hle

/-- An object whose type is not being expanded has the shapes of its fields, one level below. -/
theorem shapeOf_succ {fuel : Nat} {expanding path : List String} {type : TypeRef}
    {definition : TypeDef} {p : Projection} (hscalar : definition.isScalar = false)
    (hlist : type.isList = false) (hfresh : definition.name ∉ expanding) :
    shapeOf schema (fuel + 1) expanding path type definition p =
      (do
        let fields ← p.fieldsOf definition
        let shapes ← fields.mapM fun field => do
          let child ← Augment.typeNamed schema field.type.leafName
            (.field definition.name field.name)
          let shape ← shapeOf schema fuel (expanding ++ [definition.name])
            (path ++ [field.name]) field.type child (p.child field.name)
          return (field.name, shape)
        return .nested definition.name type.nullable shapes) := by
  rw [shapeOf.eq_def]
  dsimp only
  rw [hscalar, hlist, Bool.or_self, if_neg Bool.false_ne_true, cycleAt?_eq_none_iff.mpr hfresh]

/-- An object whose type is being expanded is a cycle, whatever the bound. -/
theorem shapeOf_of_mem {expanding path : List String} {type : TypeRef} {definition : TypeDef}
    {p : Projection} (hscalar : definition.isScalar = false) (hlist : type.isList = false)
    (hmem : definition.name ∈ expanding) (fuel : Nat) :
    shapeOf schema fuel expanding path type definition p =
      .error (.cyclicType (expanding.dropWhile (· != definition.name) ++ [definition.name])) := by
  rw [shapeOf.eq_def]
  dsimp only
  rw [hscalar, hlist, Bool.or_self, if_neg Bool.false_ne_true, cycleAt?, if_pos hmem]

/-- **Flattening has one result for all bounds** that allow for the types of objects which are not
being expanded yet. Induction on the levels: below an object one more type is being expanded. -/
theorem shapeOf_eq_of_le (hresolved : Resolved schema bindings) {fuel : Nat} :
    ∀ {fuel' : Nat} {expanding path : List String} {type : TypeRef} {definition : TypeDef}
      {p : Projection}, (definition.isScalar = false → type.isList = false →
        Meets schema bindings expanding definition p) →
      schema.objects.length ≤ fuel + expanding.length →
      schema.objects.length ≤ fuel' + expanding.length →
      shapeOf schema fuel expanding path type definition p =
        shapeOf schema fuel' expanding path type definition p := by
  induction fuel using Nat.strong_induction_on with
  | _ fuel ih =>
      intro fuel' expanding path type definition p hmeets hfuel hfuel'
      by_cases hleaf : definition.isScalar = true ∨ type.isList = true
      · rw [shapeOf_leaf hleaf, shapeOf_leaf hleaf]
      rw [not_or, Bool.not_eq_true, Bool.not_eq_true] at hleaf
      obtain ⟨hscalar, hlist⟩ := hleaf
      have hmeets := hmeets hscalar hlist
      by_cases hfresh : definition.name ∈ expanding
      · rw [shapeOf_of_mem hscalar hlist hfresh, shapeOf_of_mem hscalar hlist hfresh]
      -- A type that is not being expanded leaves room for one more level.
      have hlt := hmeets.length_lt hresolved hfresh
      obtain ⟨below, rfl⟩ : ∃ below, fuel = below + 1 := ⟨fuel - 1, by omega⟩
      obtain ⟨below', rfl⟩ : ∃ below', fuel' = below' + 1 := ⟨fuel' - 1, by omega⟩
      rw [shapeOf_succ hscalar hlist hfresh, shapeOf_succ hscalar hlist hfresh]
      cases hfields : p.fieldsOf definition with
      | error e => rfl
      | ok fields =>
          obtain ⟨-, rfl⟩ := Projection.fieldsOf_eq_ok_iff.mp hfields
          refine congrArg (fun shapes : Except GenerationError (List (String × ValueShape)) =>
            ValueShape.nested definition.name type.nullable <$> shapes)
            (mapM_congr fun field hfield => ?_)
          obtain ⟨hdeclared, hincludes⟩ := List.mem_filter.mp hfield
          cases hchild : Augment.typeNamed schema field.type.leafName
            (.field definition.name field.name) with
          | error e => rfl
          | ok child =>
              have hget := Augment.typeNamed_eq_ok_iff.mp hchild
              have hlevel : ∀ n, n + (expanding ++ [definition.name]).length =
                  n + 1 + expanding.length := by
                intro n
                rw [List.length_append, List.length_singleton]
                omega
              refine congrArg (fun shape => shape >>= fun shape => pure (field.name, shape))
                (ih below (Nat.lt_succ_self below) ?_ ?_ ?_)
              · exact fun hscalar hlist =>
                  .field hmeets hfresh hdeclared hincludes hget hscalar hlist
              · rwa [hlevel]
              · rwa [hlevel]

/-- Flattening ends, having expanded no type inside itself. -/
structure ExpansionEnds (schema : Schema) (bindings : List Binding) : Prop where
  /-- No type is being expanded twice. -/
  nodup : ∀ expanding type p, Meets schema bindings expanding type p → expanding.Nodup
  /-- There are no more types that are being expanded than there are types of objects. -/
  length_le : ∀ expanding type p, Meets schema bindings expanding type p →
    expanding.length ≤ schema.objects.length
  /-- The shape of a binding is the same with that number of levels below the binding, or with
  more. -/
  eq_of_le : ∀ binding ∈ bindings, ∀ fuel, schema.objects.length ≤ fuel →
    shapeOfBinding schema binding = (binding.name, ·) <$>
      shapeOf schema fuel [] [binding.name] binding.type binding.definition binding.projection

/-- There are no more types of objects than types. -/
theorem length_objects_le (schema : Schema) :
    schema.objects.length ≤ schema.types.entries.length := by
  have hle := List.length_filter_le (fun type => !type.isScalar) schema.types.values
  rwa [TypeMap.values, List.length_map] at hle

/-- Flattening ends for bindings with types of the schema. -/
theorem expansionEnds (hresolved : Resolved schema bindings) : ExpansionEnds schema bindings where
  nodup _ _ _ h := h.expanding_bounds.1
  length_le _ _ _ h := length_le_objects h.expanding_bounds.1
    (List.append_subset.mp (h.names_subset hresolved)).1
  eq_of_le binding hbinding fuel hfuel := by
    have hle := length_objects_le schema
    rw [shapeOfBinding, map_eq_pure_bind,
      shapeOf_eq_of_le hresolved (.root hbinding) (by rw [List.length_nil]; omega) hfuel]

/-! ### Reported cycles -/

/-- The type takes part with the projection: the type of a binding with the projection of the
binding, as it is or in normal form, and what a field that takes part leads to with the projection
below that field. -/
inductive InForce (schema : Schema) (bindings : List Binding) : TypeDef → Projection → Prop
  | binding {binding : Binding} {p : Projection} : binding ∈ bindings → binding.isScalar = false →
      p = binding.projection ∨ p = binding.projection.normalize schema binding.definition →
      InForce schema bindings binding.definition p
  | field {type child : TypeDef} {p : Projection} {field : FieldDef} :
      InForce schema bindings type p → field ∈ type.fields → p.includes field.name = true →
      schema.get? field.type.leafName = some child → child.isScalar = false →
      InForce schema bindings child (p.child field.name)

/-- Single-valued fields that take part lead along the types called `names`, one after the other.
The last of them is `type`, with projection `p`. -/
inductive SingleChain (schema : Schema) (bindings : List Binding) :
    List String → TypeDef → Projection → Prop
  | start {type : TypeDef} {p : Projection} : InForce schema bindings type p →
      SingleChain schema bindings [type.name] type p
  | field {names : List String} {type child : TypeDef} {p : Projection} {field : FieldDef} :
      SingleChain schema bindings names type p → field ∈ type.fields →
      p.includes field.name = true → field.type.isList = false →
      schema.get? field.type.leafName = some child → child.isScalar = false →
      SingleChain schema bindings (names ++ [child.name]) child (p.child field.name)

/-- The chain of single-valued fields returns to the type with which it starts. -/
def IsCycle (schema : Schema) (bindings : List Binding) (names : List String) : Prop :=
  ∃ first between type p, names = first :: between ++ [first] ∧
    SingleChain schema bindings names type p

/-- A chain leads along the path, and one along each end of it. -/
def Chained (schema : Schema) (bindings : List Binding) (path : List String) (type : TypeDef)
    (p : Projection) : Prop :=
  InForce schema bindings type p ∧
    ∀ names, names ≠ [] → names <:+ path → SingleChain schema bindings names type p

/-- A type that takes part is a path of its own. -/
theorem InForce.chained {type : TypeDef} {p : Projection} (h : InForce schema bindings type p) :
    Chained schema bindings [type.name] type p := by
  refine ⟨h, fun names hne hsuffix => ?_⟩
  have hsuffix : names <:+ [] ++ [type.name] := hsuffix
  obtain hnil | ⟨before, rfl, hbefore⟩ := List.suffix_concat_iff.mp hsuffix
  · exact absurd hnil hne
  · obtain rfl := List.suffix_nil.mp hbefore
    exact .start h

/-- A single-valued field that takes part continues the path. -/
theorem Chained.field {path : List String} {type child : TypeDef} {p : Projection}
    {field : FieldDef} (h : Chained schema bindings path type p) (hfield : field ∈ type.fields)
    (hincludes : p.includes field.name = true) (hlist : field.type.isList = false)
    (hget : schema.get? field.type.leafName = some child) (hscalar : child.isScalar = false) :
    Chained schema bindings (path ++ [child.name]) child (p.child field.name) := by
  have hinforce : InForce schema bindings child (p.child field.name) :=
    .field h.1 hfield hincludes hget hscalar
  refine ⟨hinforce, fun names hne hsuffix => ?_⟩
  obtain hnil | ⟨before, rfl, hbefore⟩ := List.suffix_concat_iff.mp hsuffix
  · exact absurd hnil hne
  · by_cases hstart : before = []
    · subst hstart
      exact .start hinforce
    · exact .field (h.2 before hstart hbefore) hfield hincludes hlist hget hscalar

/-- From the first occurrence of a name on, a path begins with the name. -/
theorem exists_dropWhile_eq_cons {path : List String} {name : String} (h : name ∈ path) :
    ∃ rest, path.dropWhile (· != name) = name :: rest := by
  induction path with
  | nil => exact absurd h List.not_mem_nil
  | cons first path ih =>
      by_cases hfirst : first = name
      · exact ⟨path, by simp [hfirst]⟩
      · obtain ⟨rest, hrest⟩ := ih ((List.mem_cons.mp h).resolve_left (Ne.symm hfirst))
        exact ⟨rest, by simp [hfirst, hrest]⟩

/-- A path that returns to a name on it has a cycle at its end. -/
theorem Chained.isCycle {path names : List String} {type : TypeDef} {p : Projection}
    (h : Chained schema bindings (path ++ [type.name]) type p)
    (hcycle : cycleAt? path type.name = some names) : IsCycle schema bindings names := by
  rw [cycleAt?] at hcycle
  split at hcycle
  · rename_i hmem
    obtain rfl := Option.some.inj hcycle
    obtain ⟨between, hbetween⟩ : ∃ between,
        path.dropWhile (· != type.name) = type.name :: between := exists_dropWhile_eq_cons hmem
    refine ⟨type.name, between, type, p, by rw [hbetween], h.2 _ ?_ ?_⟩
    · exact List.append_ne_nil_of_right_ne_nil _ (List.cons_ne_nil _ _)
    · exact List.suffix_concat_iff.mpr (Or.inr ⟨_, rfl, List.dropWhile_suffix _⟩)
  · cases hcycle

/-- **A type that is reached is at the end of its path.** Lists start a new one. -/
theorem Reached.chained {visited : List QueuedType} {queued : QueuedType}
    (h : Reached schema policy bindings visited queued) :
    Chained schema bindings queued.path queued.definition queued.projection := by
  induction h with
  | root hbinding hscalar =>
      exact (InForce.binding hbinding hscalar (Or.inr rfl)).chained
  | @field queued field child _ _ hfield hget hscalar _ ih =>
      obtain ⟨hdeclared, hincludes⟩ := QueuedType.mem_fields_iff.mp hfield
      cases hlist : field.type.isList with
      | true =>
          rw [QueuedType.along_of_isList hlist]
          exact (InForce.field ih.1 hdeclared hincludes hget hscalar).chained
      | false =>
          rw [QueuedType.along_of_single hlist]
          exact ih.field hdeclared hincludes hlist hget hscalar

/-- **A type that flattening meets is at the end of the types that are being expanded.** -/
theorem Meets.chained {expanding : List String} {type : TypeDef} {p : Projection}
    (h : Meets schema bindings expanding type p) :
    Chained schema bindings (expanding ++ [type.name]) type p := by
  induction h with
  | root hbinding hscalar _ => exact (InForce.binding hbinding hscalar (Or.inl rfl)).chained
  | field _ _ hdeclared hincludes hget hscalar hlist ih =>
      exact ih.field hdeclared hincludes hlist hget hscalar

/-- A cycle that the search reports is one. -/
theorem isCycle_of_innerClasses {names : List String}
    (h : innerClasses schema operation bindings policy = .error (.cyclicType names)) :
    IsCycle schema bindings names := by
  obtain ⟨visited, -, hreached, hblocked⟩ := exists_blocked h
  cases hblocked with
  | cycle hqueued hfield hget hscalar hlist hcycle =>
      obtain ⟨hdeclared, hincludes⟩ := QueuedType.mem_fields_iff.mp hfield
      exact ((hreached _ hqueued).chained.field hdeclared hincludes hlist hget hscalar).isCycle
        hcycle

/-- A cycle that flattening reports is one. -/
theorem isCycle_of_flattenVariables {names : List String}
    (h : flattenVariables schema operation bindings = .error (.cyclicType names)) :
    IsCycle schema bindings names := by
  rw [flattenVariables, bind_eq_error_iff] at h
  rcases h with hshapes | ⟨shapes, -, h⟩
  · cases stops_of_mapM_shapeOfBinding hshapes with
    | cycle hmeets hcycle => exact hmeets.chained.isCycle hcycle
  · obtain ⟨_, _, _, herror, -⟩ :=
      exists_of_leafParameters_eq_error (eq_error_of_bind_pure h)
    cases herror

/-- What building cannot read is no cycle. -/
theorem ne_cyclicType_of_kind {e : GenerationError} {kinds : List String}
    (h : e.kind ∈ kinds) (hkinds : "CyclicType" ∉ kinds) (names : List String) :
    e ≠ .cyclicType names := by
  rintro rfl
  exact hkinds h

/-- The bindings are those of the variables or those of the selection set. -/
def BindsFor (schema : Schema) (operation : Operation) (bindings : List Binding) : Prop :=
  variableBindings schema operation = .ok bindings ∨
    responseBindings schema operation = .ok bindings

/-- The bindings of an operation have types of the schema. -/
theorem BindsFor.resolved {operation : Operation} (h : BindsFor schema operation bindings) :
    Resolved schema bindings :=
  h.elim resolved_of_variableBindings resolved_of_responseBindings

/-- **A cycle that building reports is one** of the bindings of the variables or of the
response. -/
theorem isCycle_of_ofOperation {package : String} {operation : Operation} {names : List String}
    (h : ClassModel.ofOperation schema package operation = .error (.cyclicType names)) :
    ∃ bindings, BindsFor schema operation bindings ∧ IsCycle schema bindings names := by
  rw [ClassModel.ofOperation, bind_eq_error_iff] at h
  rcases h with hvars | ⟨vars, hvars, h⟩
  · exact absurd rfl
      (ne_cyclicType_of_kind (kind_of_variableBindings_eq_error hvars) (by decide) names)
  rcases bind_eq_error_iff.mp h with hfields | ⟨fields, hfields, h⟩
  · exact absurd rfl
      (ne_cyclicType_of_kind (kind_of_responseBindings_eq_error hfields) (by decide) names)
  rcases bind_eq_error_iff.mp h with hvariables | ⟨model, hmodel, hresponse⟩
  · rw [addVariables] at hvariables
    split at hvariables
    · cases hvariables
    rcases bind_eq_error_iff.mp hvariables with htop | ⟨cls, -, hvariables⟩
    · exact ⟨vars, Or.inl hvars, isCycle_of_innerClasses (eq_error_of_bind_pure htop)⟩
    · exact ⟨vars, Or.inl hvars, isCycle_of_flattenVariables (eq_error_of_bind_pure hvariables)⟩
  · rw [addResponse] at hresponse
    split at hresponse
    · cases hresponse
    have htop := eq_error_of_bind_pure hresponse
    exact ⟨fields, Or.inr hfields, isCycle_of_innerClasses (eq_error_of_bind_pure htop)⟩

/-- The type has a single-valued field that holds objects of the other type. -/
def HoldsSingle (schema : Schema) (type other : TypeDef) : Prop :=
  ∃ field ∈ type.fields, field.type.isList = false ∧
    schema.get? field.type.leafName = some other ∧ other.isScalar = false

/-- A type that takes part is a type of the schema. -/
theorem InForce.exists_get? (hresolved : Resolved schema bindings) {type : TypeDef}
    {p : Projection} (h : InForce schema bindings type p) :
    ∃ key, schema.get? key = some type := by
  cases h with
  | binding hbinding _ _ => exact ⟨_, hresolved _ hbinding⟩
  | field _ _ _ hget _ => exact ⟨_, hget⟩

/-- A chain leads to its last name, which is that of a type of the schema. -/
theorem SingleChain.getLast?_eq (hresolved : Resolved schema bindings) {names : List String}
    {type : TypeDef} {p : Projection} (h : SingleChain schema bindings names type p) :
    names.getLast? = some type.name ∧ ∃ key, schema.get? key = some type := by
  cases h with
  | start hinforce => exact ⟨rfl, hinforce.exists_get? hresolved⟩
  | field _ _ _ _ hget _ => exact ⟨List.getLast?_concat, _, hget⟩

/-- A chain starts at a type of the schema. It is that type, or single-valued fields lead on from
there. -/
theorem SingleChain.exists_start (hresolved : Resolved schema bindings) {names : List String}
    {type : TypeDef} {p : Projection} (h : SingleChain schema bindings names type p) :
    ∃ start key, schema.get? key = some start ∧ names.head? = some start.name ∧
      (names = [type.name] ∧ start = type ∨
        Relation.TransGen (HoldsSingle schema) start type) := by
  induction h with
  | @start type p hinforce =>
      obtain ⟨key, hget⟩ := hinforce.exists_get? hresolved
      exact ⟨type, key, hget, rfl, Or.inl ⟨rfl, rfl⟩⟩
  | @field names type child p field _ hfield _ hlist hget hscalar ih =>
      obtain ⟨start, key, hstart, hhead, hlead⟩ := ih
      have hstep : HoldsSingle schema type child := ⟨field, hfield, hlist, hget, hscalar⟩
      refine ⟨start, key, hstart, by rw [List.head?_append, hhead]; rfl, Or.inr ?_⟩
      rcases hlead with ⟨-, rfl⟩ | hlead
      · exact .single hstep
      · exact hlead.tail hstep

/-- **In a schema without cycles of single-valued fields there is no cycle to report.** -/
theorem not_isCycle (hkeyed : schema.Keyed) (hresolved : Resolved schema bindings)
    (hacyclic : ∀ type, ¬Relation.TransGen (HoldsSingle schema) type type)
    (names : List String) : ¬IsCycle schema bindings names := by
  rintro ⟨first, between, type, p, rfl, hchain⟩
  obtain ⟨hlast, key, hget⟩ := hchain.getLast?_eq hresolved
  obtain ⟨start, key', hget', hhead, hlead⟩ := hchain.exists_start hresolved
  have hsame : start = type := by
    refine hkeyed.eq_of_name_eq hget' hget ?_
    rw [List.getLast?_concat, Option.some.injEq] at hlast
    exact (Option.some.inj hhead).symm.trans hlast
  rcases hlead with ⟨hsingle, -⟩ | hlead
  · simp at hsingle
  · exact hacyclic type (hsame ▸ hlead)

end Build

open Build

/-- **Building ends on every schema, and the cycles that it reports are cycles.** For the bindings
of an operation the search for nested classes queues each type once, and ends with the result that
it has with its bound; so does flattening, which expands no type inside itself. A cycle that is
reported runs along single-valued fields that take part and returns to the type with which it
starts. So a schema without such cycles is never reported to have one. -/
theorem ofOperation_ends {schema : Schema} (hkeyed : schema.Keyed) (operation : Operation) :
    (∀ bindings, BindsFor schema operation bindings →
      (∀ policy, SearchEnds schema operation.name policy bindings) ∧
        ExpansionEnds schema bindings) ∧
    (∀ package names,
      ClassModel.ofOperation schema package operation = .error (.cyclicType names) →
        ∃ bindings, BindsFor schema operation bindings ∧ IsCycle schema bindings names) ∧
    ((∀ type, ¬Relation.TransGen (HoldsSingle schema) type type) → ∀ package names,
      ClassModel.ofOperation schema package operation ≠ .error (.cyclicType names)) := by
  refine ⟨fun bindings hbinds => ⟨searchEnds hbinds.resolved operation.name,
    expansionEnds hbinds.resolved⟩, fun package names h => isCycle_of_ofOperation h, ?_⟩
  intro hacyclic package names h
  obtain ⟨bindings, hbinds, hcycle⟩ := isCycle_of_ofOperation h
  exact not_isCycle hkeyed hbinds.resolved hacyclic names hcycle

/-- Authors and books that refer to each other, by values or by lists as `wrap` says. -/
def bookSchema (wrap : TypeRef → TypeRef) : Schema where
  types := .ofList (standardScalars.map .givenScalar ++ [
    { name := "Author", kind := .input, fields := [
        { name := "name", type := .named "String" false },
        { name := "book", type := wrap (.named "Book" true) }] },
    { name := "Book", kind := .input, fields := [
        { name := "title", type := .named "String" false },
        { name := "author", type := wrap (.named "Author" true) }] }])
  query := { name := "Query" }
  mutation := { name := "Mutation", fields := [
    { name := "print", type := .named "Int" true, arguments := [
        { name := "book", type := .named "Book" false }] }] }

/-- Takes a book. -/
def printBook : Operation where
  name := "Print"
  kind := .mutation
  vars := [{ name := "book", type := .named "Book" false }]
  selections := [.field "print" none []]

/-- By values the types are a cycle, which is reported, and by lists they are none. -/
theorem ofOperation_ends_printBook :
    (∃ bindings, BindsFor (bookSchema id) printBook bindings ∧
      (∀ policy, SearchEnds (bookSchema id) "Print" policy bindings) ∧
      ExpansionEnds (bookSchema id) bindings) ∧
    (∃ bindings, BindsFor (bookSchema id) printBook bindings ∧
      IsCycle (bookSchema id) bindings ["Book", "Author", "Book"]) ∧
    ∀ package names, ClassModel.ofOperation (bookSchema (.list · false)) package printBook ≠
      .error (.cyclicType names) := by
  have hcyclic : (bookSchema id).Keyed := by decide
  have hkeyed : (bookSchema (.list · false)).Keyed := by decide
  have hreported : ClassModel.ofOperation (bookSchema id) "crate" printBook =
      .error (.cyclicType ["Book", "Author", "Book"]) := by rfl
  obtain ⟨bindings, hbindings⟩ : ∃ bindings,
      variableBindings (bookSchema id) printBook = .ok bindings := ⟨_, rfl⟩
  -- The second schema has no single-valued field that holds objects.
  have hnone : ∀ type ∈ (bookSchema (.list · false)).objects, ∀ field ∈ type.fields,
      field.type.isList = true ∨ field.type.leafName = "String" := by decide
  have hscalar : (bookSchema (.list · false)).get? "String" = some (.givenScalar "String") := by rfl
  obtain ⟨hends, hcycles, -⟩ := ofOperation_ends hcyclic printBook
  refine ⟨⟨bindings, Or.inl hbindings, hends bindings (Or.inl hbindings)⟩,
    hcycles "crate" _ hreported, (ofOperation_ends hkeyed printBook).2.2 fun type hcycle => ?_⟩
  obtain ⟨_, -, ⟨_, -, -, hget, hobject⟩⟩ := Relation.TransGen.tail'_iff.mp hcycle
  obtain ⟨other, ⟨field, hfield, hlist, hother, hotherScalar⟩, -⟩ :=
    Relation.TransGen.head'_iff.mp hcycle
  rcases hnone type (Schema.mem_objects_of_get? hget hobject) field hfield with htrue | hleaf
  · cases hlist.symm.trans htrue
  · rw [hleaf, hscalar] at hother
    obtain rfl := Option.some.inj hother
    cases hotherScalar

end ClientSdk
