import ClientSdk.Build.Inner
import ClientSdk.Proofs.Projection.Paths
import ClientSdk.Proofs.WellFormed

/-!
# Discovery of Nested Classes

The breadth-first search for nested classes visits types, each once and with one projection.
This module says what the search has established when it ends: which types are visited, why
each of them is, and how the fields of a visited type lead to other visited types. Where the
search fails, it says which visited type stops it.

## Main definitions

* `QueuedType.along`: what a field of a visited type leads to.
* `Reached`: a chain of fields of visited types leads from a binding to a type.
* `Led`: where a field of a visited type leads.
* `Discovered`: everything that a finished search has established.
* `Blocked`: why a search stops with an error.

## Main results

* `exists_discovered`: a search that succeeds gives the classes of the types discovered.
* `exists_blocked`: a search that fails is blocked at a visited type.
-/

namespace ClientSdk

namespace Build

variable {schema : Schema} {operation : String} {policy : ListPolicy} {bindings : List Binding}

/-! ### Visited types -/

namespace QueuedType

/-- The name of the type. -/
def name (queued : QueuedType) : String := queued.definition.name

/-- The fields of the type that take part, in declaration order. -/
def fields (queued : QueuedType) : List FieldDef :=
  queued.definition.fields.filter fun field => queued.projection.includes field.name

/-- The class of the type. -/
def decl (queued : QueuedType) : ClassDecl := classOf queued.definition queued.fields

/-- The type of a binding, as the search starts with it. -/
def ofBinding (schema : Schema) (binding : Binding) : QueuedType where
  definition := binding.definition
  projection := binding.projection.normalize schema binding.definition
  path := [binding.definition.name]

/-- What a field with elements of type `child` leads to. A single-valued field continues the
chain of its type, and a list starts a new one. -/
def along (queued : QueuedType) (field : FieldDef) (child : TypeDef) : QueuedType where
  definition := child
  projection := queued.projection.child field.name
  path := if field.type.isList then [child.name] else queued.path ++ [child.name]

@[simp] theorem projection_along (queued : QueuedType) (field : FieldDef) (child : TypeDef) :
    (queued.along field child).projection = queued.projection.child field.name :=
  rfl

theorem along_of_isList {queued : QueuedType} {field : FieldDef} {child : TypeDef}
    (h : field.type.isList = true) : queued.along field child =
      { definition := child, projection := queued.projection.child field.name,
        path := [child.name] } := by
  rw [along, if_pos h]

theorem along_of_single {queued : QueuedType} {field : FieldDef} {child : TypeDef}
    (h : field.type.isList = false) : queued.along field child =
      { definition := child, projection := queued.projection.child field.name,
        path := queued.path ++ [child.name] } := by
  rw [along, h, if_neg Bool.false_ne_true]

/-- A declared field takes part when the projection includes it. -/
theorem mem_fields_iff {queued : QueuedType} {field : FieldDef} :
    field ∈ queued.fields ↔
      field ∈ queued.definition.fields ∧ queued.projection.includes field.name = true :=
  List.mem_filter

end QueuedType

/-- A list field reuses the class of a binding's type, instead of reaching that type. -/
def ReusesRoot (policy : ListPolicy) (bindings : List Binding) (field : FieldDef)
    (child : TypeDef) : Prop :=
  policy = .reuse ∧ field.type.isList = true ∧
    ∃ binding ∈ bindings, binding.isScalar = false ∧ binding.definition.name = child.name

/-- A chain of fields of visited types leads from a binding to a type. -/
inductive Reached (schema : Schema) (policy : ListPolicy) (bindings : List Binding)
    (visited : List QueuedType) : QueuedType → Prop
  | root {binding : Binding} : binding ∈ bindings → binding.isScalar = false →
      Reached schema policy bindings visited (.ofBinding schema binding)
  | field {queued : QueuedType} {field : FieldDef} {child : TypeDef} :
      Reached schema policy bindings visited queued → queued ∈ visited →
      field ∈ queued.fields → schema.get? field.type.leafName = some child →
      child.isScalar = false → ¬ReusesRoot policy bindings field child →
      Reached schema policy bindings visited (queued.along field child)

/-- What is reached stays reached when more types are visited. -/
theorem Reached.mono {visited visited' : List QueuedType} (hsub : visited ⊆ visited')
    {queued : QueuedType} (h : Reached schema policy bindings visited queued) :
    Reached schema policy bindings visited' queued := by
  induction h with
  | root hbinding hscalar => exact .root hbinding hscalar
  | field _ hmem hfield hget hscalar hreuse ih =>
      exact .field ih (hsub hmem) hfield hget hscalar hreuse

/-- A reached type is the type of a binding or a type of the schema. -/
theorem Reached.name_mem {visited : List QueuedType} {queued : QueuedType}
    (h : Reached schema policy bindings visited queued) :
    queued.name ∈ bindings.map (·.definition.name) ++ schema.types.values.map (·.name) := by
  cases h with
  | root hbinding _ =>
      exact List.mem_append_left _ (List.mem_map.mpr ⟨_, hbinding, rfl⟩)
  | field _ _ _ hget _ _ =>
      exact List.mem_append_right _
        (List.mem_map_of_mem (Schema.mem_values_of_get? hget))

/-- A type that is reached has fields. -/
theorem Reached.isScalar_eq_false {visited : List QueuedType} {queued : QueuedType}
    (h : Reached schema policy bindings visited queued) : queued.definition.isScalar = false := by
  cases h with
  | root _ hscalar => exact hscalar
  | field _ _ _ _ hscalar _ => exact hscalar

/-- The type is visited with the same projection. -/
def Recorded (visited : List QueuedType) (queued : QueuedType) : Prop :=
  ∃ other ∈ visited, other.name = queued.name ∧ other.projection = queued.projection

theorem Recorded.mono {visited visited' : List QueuedType} (hsub : visited ⊆ visited')
    {queued : QueuedType} (h : Recorded visited queued) : Recorded visited' queued := by
  obtain ⟨other, hmem, hother⟩ := h
  exact ⟨other, hsub hmem, hother⟩

/-- Where a field of a visited type leads: to a scalar, or to a type that is visited with the
projection of the field, which only a reusing list need not share. A single-valued field leads
to no type on the chain that it continues. -/
def Led (schema : Schema) (policy : ListPolicy) (visited : List QueuedType)
    (queued : QueuedType) (field : FieldDef) : Prop :=
  ∃ child, schema.get? field.type.leafName = some child ∧ (child.isScalar = false →
    (Recorded visited (queued.along field child) ∨
      policy = .reuse ∧ field.type.isList = true ∧ ∃ other ∈ visited, other.name = child.name) ∧
    (field.type.isList = false → child.name ∉ queued.path))

theorem Led.mono {visited visited' : List QueuedType} (hsub : visited ⊆ visited')
    {queued : QueuedType} {field : FieldDef} (h : Led schema policy visited queued field) :
    Led schema policy visited' queued field := by
  obtain ⟨child, hget, hchild⟩ := h
  refine ⟨child, hget, fun hscalar => ?_⟩
  obtain ⟨hrecorded | ⟨hpolicy, hlist, other, hmem, hname⟩, hpath⟩ := hchild hscalar
  · exact ⟨Or.inl (hrecorded.mono hsub), hpath⟩
  · exact ⟨Or.inr ⟨hpolicy, hlist, other, hsub hmem, hname⟩, hpath⟩

/-- The fields of the type are followed: its projection names declared fields only, and each
field that takes part leads somewhere. -/
def Followed (schema : Schema) (policy : ListPolicy) (visited : List QueuedType)
    (queued : QueuedType) : Prop :=
  queued.projection.unknownField? queued.definition = none ∧
    ∀ field ∈ queued.fields, Led schema policy visited queued field

theorem Followed.mono {visited visited' : List QueuedType} (hsub : visited ⊆ visited')
    {queued : QueuedType} (h : Followed schema policy visited queued) :
    Followed schema policy visited' queued :=
  ⟨h.1, fun field hfield => (h.2 field hfield).mono hsub⟩

/-- The types of the bindings are visited, with their normal projections. -/
def Rooted (schema : Schema) (bindings : List Binding) (visited : List QueuedType) : Prop :=
  ∀ binding ∈ bindings, binding.isScalar = false → Recorded visited (.ofBinding schema binding)

/-- What a finished search has established about the types that it visited. -/
structure Discovered (schema : Schema) (policy : ListPolicy) (bindings : List Binding)
    (visited : List QueuedType) : Prop where
  /-- Each type is visited once. -/
  nodup : (visited.map QueuedType.name).Nodup
  /-- Each type is reached from a binding. -/
  reached : ∀ queued ∈ visited, Reached schema policy bindings visited queued
  /-- The types of the bindings are visited. -/
  rooted : Rooted schema bindings visited
  /-- The fields of each type are followed. -/
  followed : ∀ queued ∈ visited, Followed schema policy visited queued

/-- Why a search stops with an error, in terms of the types that it has visited. -/
inductive Blocked (schema : Schema) (operation : String) (policy : ListPolicy)
    (bindings : List Binding) (visited : List QueuedType) : GenerationError → Prop
  | conflict {queued other : QueuedType} : Reached schema policy bindings visited queued →
      other ∈ visited → other.name = queued.name → other.projection ≠ queued.projection →
      Blocked schema operation policy bindings visited
        (.conflictingProjection operation queued.name)
  | cycle {queued : QueuedType} {field : FieldDef} {child : TypeDef} {names : List String} :
      queued ∈ visited → field ∈ queued.fields →
      schema.get? field.type.leafName = some child → child.isScalar = false →
      field.type.isList = false → cycleAt? queued.path child.name = some names →
      Blocked schema operation policy bindings visited (.cyclicType names)
  | missing {queued : QueuedType} {field : FieldDef} :
      queued ∈ visited → field ∈ queued.fields → schema.get? field.type.leafName = none →
      Blocked schema operation policy bindings visited
        (.missingType field.type.leafName (.field queued.name field.name))
  | unknown {queued : QueuedType} {name : String} :
      queued ∈ visited → queued.projection.unknownField? queued.definition = some name →
      Blocked schema operation policy bindings visited (.unknownField queued.name name)

/-! ### Single steps -/

/-- The recorded names and projections are those of the types visited: the types followed, then
the types in the queue. Each is visited once and for a reason. -/
structure Searching (schema : Schema) (policy : ListPolicy) (bindings : List Binding)
    (done : List QueuedType) (state : Discovery) : Prop where
  /-- The record of the search is that of the visited types. -/
  recorded : state.reached =
    (done ++ state.queue).map fun queued => (queued.name, queued.projection)
  /-- Each type is visited once. -/
  nodup : ((done ++ state.queue).map QueuedType.name).Nodup
  /-- Each type is reached from a binding. -/
  reached : ∀ queued ∈ done ++ state.queue,
    Reached schema policy bindings (done ++ state.queue) queued

/-- The search finds the names of the visited types in its record. -/
theorem Searching.names_eq {done : List QueuedType} {state : Discovery}
    (h : Searching schema policy bindings done state) :
    state.reached.map Prod.fst = (done ++ state.queue).map QueuedType.name := by
  rw [h.recorded, List.map_map]
  rfl

/-- What the record holds under a name is the projection of a visited type of that name. -/
theorem Searching.exists_of_lookup {done : List QueuedType} {state : Discovery}
    (h : Searching schema policy bindings done state) {name : String} {p : Projection}
    (hlookup : state.reached.lookup name = some p) :
    ∃ queued ∈ done ++ state.queue, queued.name = name ∧ queued.projection = p := by
  have hmem := mem_of_lookup_eq_some hlookup
  rw [h.recorded] at hmem
  obtain ⟨queued, hqueued, heq⟩ := List.mem_map.mp hmem
  obtain ⟨hname, hprojection⟩ := Prod.mk.inj heq
  exact ⟨queued, hqueued, hname, hprojection⟩

/-- The visited types are at most as many as the bindings and the types of the schema. -/
theorem Searching.length_le {done : List QueuedType} {state : Discovery}
    (h : Searching schema policy bindings done state) :
    (done ++ state.queue).length ≤ bindings.length + schema.types.entries.length := by
  have hsub : (done ++ state.queue).map QueuedType.name ⊆
      bindings.map (·.definition.name) ++ schema.types.values.map (·.name) := by
    intro name hname
    obtain ⟨queued, hqueued, rfl⟩ := List.mem_map.mp hname
    exact (h.reached queued hqueued).name_mem
  have hle := List.Nodup.length_le_of_subset h.nodup hsub
  simpa [TypeMap.values] using hle

/-- **Reaching a type** either finds it visited with the same projection, or puts it in the
queue. -/
theorem Searching.reach {done : List QueuedType} {state state' : Discovery}
    (h : Searching schema policy bindings done state) {queued : QueuedType}
    (hreached : Reached schema policy bindings (done ++ state.queue) queued)
    (hreach : reach operation state queued = .ok state') :
    Searching schema policy bindings done state' ∧ state.queue ⊆ state'.queue ∧
      Recorded (done ++ state'.queue) queued := by
  rw [Build.reach] at hreach
  cases hlookup : state.reached.lookup queued.definition.name with
  | some p =>
      rw [hlookup] at hreach
      dsimp only at hreach
      split at hreach
      · rename_i hp
        obtain rfl := Except.ok.inj hreach
        obtain ⟨other, hother, hname, rfl⟩ := h.exists_of_lookup hlookup
        exact ⟨h, List.Subset.refl _, other, hother, hname, hp⟩
      · cases hreach
  | none =>
      rw [hlookup] at hreach
      obtain rfl := Except.ok.inj hreach
      have hassoc : done ++ (state.queue ++ [queued]) = done ++ state.queue ++ [queued] :=
        (List.append_assoc ..).symm
      have hfresh : queued.name ∉ (done ++ state.queue).map QueuedType.name := by
        rw [← h.names_eq, ← isSome_lookup_iff]
        simp [QueuedType.name, hlookup]
      refine ⟨⟨?_, ?_, ?_⟩, List.subset_append_left _ _, queued, by simp, rfl, rfl⟩
      · rw [hassoc, List.map_append, ← h.recorded]
        rfl
      · rw [hassoc, List.map_append, List.map_singleton]
        exact h.nodup.append (List.nodup_singleton _) (List.disjoint_singleton.mpr hfresh)
      · rw [hassoc]
        intro other hother
        have hsub : done ++ state.queue ⊆ done ++ state.queue ++ [queued] :=
          List.subset_append_left _ _
        rcases List.mem_append.mp hother with hold | hnew
        · exact (h.reached other hold).mono hsub
        · exact (List.mem_singleton.mp hnew) ▸ hreached.mono hsub

/-- Reaching a type fails where the type is visited with another projection. -/
theorem Searching.blocked_of_reach {done : List QueuedType} {state : Discovery}
    (h : Searching schema policy bindings done state) {queued : QueuedType}
    (hreached : Reached schema policy bindings (done ++ state.queue) queued)
    {e : GenerationError} (hreach : Build.reach operation state queued = .error e) :
    Blocked schema operation policy bindings (done ++ state.queue) e := by
  rw [Build.reach] at hreach
  cases hlookup : state.reached.lookup queued.definition.name with
  | some p =>
      rw [hlookup] at hreach
      dsimp only at hreach
      split at hreach
      · cases hreach
      · rename_i hp
        obtain rfl := Except.error.inj hreach
        obtain ⟨other, hother, hname, rfl⟩ := h.exists_of_lookup hlookup
        exact .conflict hreached hother hname hp
  | none =>
      rw [hlookup] at hreach
      cases hreach

/-- There is a cycle at a name exactly when the name is on the path. -/
theorem cycleAt?_eq_none_iff {path : List String} {name : String} :
    cycleAt? path name = none ↔ name ∉ path := by
  simp [cycleAt?]

/-- The list field leads to a type that is visited already, and its policy lets it reuse the
class of that type. -/
def Reuses (policy : ListPolicy) (state : Discovery) (field : FieldDef) (child : TypeDef) :
    Prop :=
  policy = .reuse ∧ field.type.isList = true ∧ (state.reached.lookup child.name).isSome = true

/-- The outcomes of following a field of a type: a failure where the type of the field is
missing or closes a cycle, the same state at a scalar and at a list that reuses a class, and
else what reaching the type gives. -/
inductive Following (schema : Schema) (operation : String) (policy : ListPolicy)
    (queued : QueuedType) (state : Discovery) (field : FieldDef) :
    Except GenerationError Discovery → Prop
  | missing : schema.get? field.type.leafName = none →
      Following schema operation policy queued state field
        (.error (.missingType field.type.leafName (.field queued.name field.name)))
  | scalar {child : TypeDef} : schema.get? field.type.leafName = some child →
      child.isScalar = true → Following schema operation policy queued state field (.ok state)
  | reused {child : TypeDef} : schema.get? field.type.leafName = some child →
      Reuses policy state field child →
      Following schema operation policy queued state field (.ok state)
  | cycle {child : TypeDef} {names : List String} :
      schema.get? field.type.leafName = some child → child.isScalar = false →
      field.type.isList = false → cycleAt? queued.path child.name = some names →
      Following schema operation policy queued state field (.error (.cyclicType names))
  | reach {child : TypeDef} : schema.get? field.type.leafName = some child →
      child.isScalar = false → ¬Reuses policy state field child →
      (field.type.isList = false → child.name ∉ queued.path) →
      Following schema operation policy queued state field
        (reach operation state (queued.along field child))

/-- Following a field has one of its outcomes. -/
theorem following_followField (schema : Schema) (operation : String) (policy : ListPolicy)
    (queued : QueuedType) (state : Discovery) (field : FieldDef) :
    Following schema operation policy queued state field
      (followField schema operation policy queued state field) := by
  rw [followField, Augment.typeNamed]
  cases hget : schema.get? field.type.leafName with
  | none => exact .missing hget
  | some child =>
      rw [show ∀ f : TypeDef → Except GenerationError Discovery,
        ((Except.ok child : Except GenerationError TypeDef) >>= f) = f child from fun _ => rfl]
      dsimp only
      split
      · rename_i hscalar
        exact .scalar hget hscalar
      · rename_i hscalar
        rw [Bool.not_eq_true] at hscalar
        split
        · rename_i hlist
          split
          · rename_i hreuse
            exact .reused hget ⟨hreuse.1, hlist, hreuse.2⟩
          · rename_i hreuse
            rw [← QueuedType.along_of_isList hlist]
            exact .reach hget hscalar (fun h => hreuse ⟨h.1, h.2.2⟩)
              (fun h => absurd hlist (by simp [h]))
        · rename_i hlist
          rw [Bool.not_eq_true] at hlist
          split
          · rename_i names hcycle
            exact .cycle hget hscalar hlist hcycle
          · rename_i hcycle
            rw [← QueuedType.along_of_single hlist]
            exact .reach hget hscalar (fun h => absurd h.2.1 (by simp [hlist]))
              (fun _ => cycleAt?_eq_none_iff.mp hcycle)

/-- More in the queue means more visited. -/
theorem visited_subset {done queue queue' : List QueuedType} (h : queue ⊆ queue') :
    done ++ queue ⊆ done ++ queue' :=
  List.append_subset.mpr
    ⟨List.subset_append_left _ _, List.Subset.trans h (List.subset_append_right _ _)⟩

section Field

variable {done : List QueuedType} {state : Discovery} {queued : QueuedType} {field : FieldDef}

/-- A list that reuses no class of a visited type reuses none of a binding's type. -/
theorem not_reusesRoot (hrooted : Rooted schema bindings (done ++ state.queue))
    (h : Searching schema policy bindings done state) {child : TypeDef}
    (hreuse : ¬Reuses policy state field child) : ¬ReusesRoot policy bindings field child := by
  rintro ⟨hpolicy, hlist, binding, hbinding, hscalar, hname⟩
  obtain ⟨other, hother, hname', -⟩ := hrooted binding hbinding hscalar
  refine hreuse ⟨hpolicy, hlist, ?_⟩
  rw [isSome_lookup_iff, h.names_eq, ← hname]
  exact List.mem_map.mpr ⟨other, hother, hname'⟩

/-- **Following a field** keeps what the search has established, and the field leads
somewhere. -/
theorem Searching.followField {state' : Discovery}
    (h : Searching schema policy bindings done state)
    (hrooted : Rooted schema bindings (done ++ state.queue)) (hqueued : queued ∈ done)
    (hfield : field ∈ queued.fields)
    (hfollow : followField schema operation policy queued state field = .ok state') :
    Searching schema policy bindings done state' ∧ state.queue ⊆ state'.queue ∧
      Led schema policy (done ++ state'.queue) queued field := by
  have hmem : queued ∈ done ++ state.queue := List.mem_append_left _ hqueued
  have houtcome := following_followField schema operation policy queued state field
  rw [hfollow] at houtcome
  generalize hresult : Except.ok state' = result at houtcome
  cases houtcome with
  | missing => cases hresult
  | cycle => cases hresult
  | scalar hget hscalar =>
      obtain rfl := Except.ok.inj hresult
      exact ⟨h, List.Subset.refl _, _, hget, fun hfalse => by simp [hscalar] at hfalse⟩
  | @reused child hget hreuse =>
      obtain rfl := Except.ok.inj hresult
      obtain ⟨hpolicy, hlist, hsome⟩ := hreuse
      rw [isSome_lookup_iff, h.names_eq, List.mem_map] at hsome
      exact ⟨h, List.Subset.refl _, child, hget, fun _ =>
        ⟨Or.inr ⟨hpolicy, hlist, hsome⟩, fun hsingle => absurd hlist (by simp [hsingle])⟩⟩
  | @reach child hget hscalar hreuse hpath =>
      have hreached : Reached schema policy bindings (done ++ state.queue)
          (queued.along field child) :=
        .field (h.reached _ hmem) hmem hfield hget hscalar (not_reusesRoot hrooted h hreuse)
      obtain ⟨h', hsub, hrecorded⟩ := h.reach hreached hresult.symm
      exact ⟨h', hsub, child, hget, fun _ => ⟨Or.inl hrecorded, hpath⟩⟩

/-- A field that cannot be followed blocks the search. -/
theorem Searching.blocked_of_followField (h : Searching schema policy bindings done state)
    (hrooted : Rooted schema bindings (done ++ state.queue)) (hqueued : queued ∈ done)
    (hfield : field ∈ queued.fields) {e : GenerationError}
    (hfollow : Build.followField schema operation policy queued state field = .error e) :
    Blocked schema operation policy bindings (done ++ state.queue) e := by
  have hmem : queued ∈ done ++ state.queue := List.mem_append_left _ hqueued
  have houtcome := following_followField schema operation policy queued state field
  rw [hfollow] at houtcome
  generalize hresult : Except.error e = result at houtcome
  cases houtcome with
  | missing hget =>
      obtain rfl := Except.error.inj hresult
      exact .missing hmem hfield hget
  | cycle hget hscalar hsingle hcycle =>
      obtain rfl := Except.error.inj hresult
      exact .cycle hmem hfield hget hscalar hsingle hcycle
  | scalar => cases hresult
  | reused => cases hresult
  | reach hget hscalar hreuse _ =>
      exact h.blocked_of_reach
        (.field (h.reached _ hmem) hmem hfield hget hscalar (not_reusesRoot hrooted h hreuse))
        hresult.symm

end Field

/-! ### Runs -/

/-- Taking the next type from the queue leaves the visited types as they are. -/
theorem Searching.start {done queue : List QueuedType} {state : Discovery}
    {queued : QueuedType} (h : Searching schema policy bindings done state)
    (hqueue : state.queue = queued :: queue) :
    Searching schema policy bindings (done ++ [queued]) { state with queue := queue } := by
  have hsame : done ++ [queued] ++ queue = done ++ state.queue := by simp [hqueue]
  refine ⟨?_, ?_, ?_⟩
  · rw [hsame, ← h.recorded]
  · rw [hsame]
    exact h.nodup
  · rw [hsame]
    exact h.reached

/-- The bindings are visited as long as more is visited. -/
theorem Rooted.mono {visited visited' : List QueuedType} (hsub : visited ⊆ visited')
    (h : Rooted schema bindings visited) : Rooted schema bindings visited' :=
  fun binding hbinding hscalar => (h binding hbinding hscalar).mono hsub

/-- **Following fields** one after the other keeps what the search has established, and each of
them leads somewhere. -/
theorem Searching.followFields {done : List QueuedType} {state state' : Discovery}
    {queued : QueuedType} {fields : List FieldDef}
    (h : Searching schema policy bindings done state)
    (hrooted : Rooted schema bindings (done ++ state.queue)) (hqueued : queued ∈ done)
    (hfields : fields ⊆ queued.fields)
    (hfold : fields.foldlM (Build.followField schema operation policy queued) state =
      .ok state') :
    Searching schema policy bindings done state' ∧ state.queue ⊆ state'.queue ∧
      ∀ field ∈ fields, Led schema policy (done ++ state'.queue) queued field := by
  refine foldlM_induction (motive := fun followed current =>
    Searching schema policy bindings done current ∧ state.queue ⊆ current.queue ∧
      ∀ field ∈ followed, Led schema policy (done ++ current.queue) queued field) hfold
    ⟨h, List.Subset.refl _, fun _ hfield => absurd hfield List.not_mem_nil⟩ ?_
  rintro followed field rest current next hsplit ⟨hsearch, hsub, hled⟩ hstep
  have hfield : field ∈ queued.fields := hfields (by simp [hsplit])
  obtain ⟨hsearch', hsub', hled'⟩ := hsearch.followField
    (hrooted.mono (visited_subset hsub)) hqueued hfield hstep
  refine ⟨hsearch', List.Subset.trans hsub hsub', fun other hother => ?_⟩
  rcases List.mem_append.mp hother with hold | hnew
  · exact (hled other hold).mono (visited_subset hsub')
  · exact (List.mem_singleton.mp hnew) ▸ hled'

/-- Fields that cannot be followed block the search at one of them. -/
theorem Searching.blocked_of_followFields {done : List QueuedType} {state : Discovery}
    {queued : QueuedType} {fields : List FieldDef}
    (h : Searching schema policy bindings done state)
    (hrooted : Rooted schema bindings (done ++ state.queue)) (hqueued : queued ∈ done)
    (hfields : fields ⊆ queued.fields) {e : GenerationError}
    (hfold : fields.foldlM (Build.followField schema operation policy queued) state =
      .error e) :
    ∃ state', Searching schema policy bindings done state' ∧
      Blocked schema operation policy bindings (done ++ state'.queue) e := by
  obtain ⟨followed, field, rest, current, rfl, hprefix, hstep⟩ :=
    exists_step_of_foldlM_eq_error hfold
  obtain ⟨hsearch, hsub, -⟩ := h.followFields hrooted hqueued
    (fun other hother => hfields (List.mem_append_left _ hother)) hprefix
  exact ⟨current, hsearch, hsearch.blocked_of_followField
    (hrooted.mono (visited_subset hsub)) hqueued (hfields (by simp)) hstep⟩

/-- **Following the next type of the queue** keeps what the search has established. Its fields lead
somewhere, and what was visited stays visited. -/
theorem Searching.next {done queue : List QueuedType} {queued : QueuedType}
    {state next : Discovery} (h : Searching schema policy bindings done state)
    (hrooted : Rooted schema bindings (done ++ state.queue))
    (hqueue : state.queue = queued :: queue)
    (hfold : queued.fields.foldlM (Build.followField schema operation policy queued)
      { state with queue := queue } = .ok next) :
    Searching schema policy bindings (done ++ [queued]) next ∧
      done ++ state.queue ⊆ done ++ [queued] ++ next.queue ∧
      ∀ field ∈ queued.fields, Led schema policy (done ++ [queued] ++ next.queue) queued field := by
  have hsame : done ++ [queued] ++ queue = done ++ state.queue := by simp [hqueue]
  obtain ⟨hsearch, hsub, hled⟩ := (h.start hqueue).followFields
    (hrooted.mono (by rw [hsame]; exact List.Subset.refl _)) (by simp) (List.Subset.refl _) hfold
  refine ⟨hsearch, ?_, hled⟩
  rw [← hsame]
  exact visited_subset hsub

/-- **Following the queue** to its end visits every type that there is to visit. Induction on
the number of types that may still be followed, which the bindings and the types of the schema
bound. -/
theorem Searching.discovered_of_followQueue {fuel : Nat} :
    ∀ {done : List QueuedType} {state : Discovery} {classes : List ClassDecl},
      Searching schema policy bindings done state →
      Rooted schema bindings (done ++ state.queue) →
      (∀ queued ∈ done, Followed schema policy (done ++ state.queue) queued) →
      bindings.length + schema.types.entries.length ≤ fuel + done.length →
      followQueue schema operation policy fuel state = .ok classes →
      ∃ rest, Discovered schema policy bindings (done ++ rest) ∧
        classes = rest.map QueuedType.decl := by
  -- With an empty queue the types that are done are all the types that are visited.
  have hdone : ∀ {done : List QueuedType} {state : Discovery} {classes : List ClassDecl},
      Searching schema policy bindings done state →
      Rooted schema bindings (done ++ state.queue) →
      (∀ queued ∈ done, Followed schema policy (done ++ state.queue) queued) →
      state.queue = [] → classes = [] →
      ∃ rest, Discovered schema policy bindings (done ++ rest) ∧
        classes = rest.map QueuedType.decl := by
    intro done state classes h hrooted hfollowed hqueue hclasses
    have hnodup := h.nodup
    have hreached := h.reached
    rw [hqueue] at hnodup hreached hrooted hfollowed
    refine ⟨[], ⟨hnodup, hreached, hrooted, ?_⟩, hclasses⟩
    intro queued hqueued
    exact hfollowed queued (by simpa using hqueued)
  induction fuel with
  | zero =>
      intro done state classes h hrooted hfollowed hfuel hrun
      have hempty : state.queue = [] := by
        have hle := h.length_le
        rw [List.length_append] at hle
        exact List.length_eq_zero_iff.mp (by omega)
      exact hdone h hrooted hfollowed hempty (Except.ok.inj hrun).symm
  | succ fuel ih =>
      intro done state classes h hrooted hfollowed hfuel hrun
      rw [followQueue] at hrun
      cases hqueue : state.queue with
      | nil =>
          rw [hqueue] at hrun
          exact hdone h hrooted hfollowed hqueue (Except.ok.inj hrun).symm
      | cons queued queue =>
          rw [hqueue] at hrun
          simp only [bind_eq_ok_iff, pure_eq_ok_iff] at hrun
          obtain ⟨fields, hfields, next, hfold, classes', hrest, rfl⟩ := hrun
          obtain ⟨hunknown, rfl⟩ := Projection.fieldsOf_eq_ok_iff.mp hfields
          obtain ⟨hsearch, hgrow, hled⟩ := h.next hrooted hqueue hfold
          have hfollowed' : ∀ other ∈ done ++ [queued],
              Followed schema policy (done ++ [queued] ++ next.queue) other := by
            intro other hother
            rcases List.mem_append.mp hother with hold | hnew
            · exact (hfollowed other hold).mono hgrow
            · obtain rfl := List.mem_singleton.mp hnew
              exact ⟨hunknown, hled⟩
          have hfuel' : bindings.length + schema.types.entries.length ≤
              fuel + (done ++ [queued]).length := by
            rw [List.length_append, List.length_singleton]
            omega
          obtain ⟨rest, hdiscovered, rfl⟩ :=
            ih hsearch (hrooted.mono hgrow) hfollowed' hfuel' hrest
          refine ⟨queued :: rest, ?_, rfl⟩
          rwa [List.append_assoc, List.singleton_append] at hdiscovered

/-- A queue that cannot be followed to its end is blocked at a visited type. -/
theorem Searching.blocked_of_followQueue {fuel : Nat} {e : GenerationError} :
    ∀ {done : List QueuedType} {state : Discovery},
      Searching schema policy bindings done state →
      Rooted schema bindings (done ++ state.queue) →
      followQueue schema operation policy fuel state = .error e →
      ∃ done' state', Searching schema policy bindings done' state' ∧
        Blocked schema operation policy bindings (done' ++ state'.queue) e := by
  induction fuel with
  | zero =>
      intro done state _ _ hrun
      cases hrun
  | succ fuel ih =>
      intro done state h hrooted hrun
      rw [followQueue] at hrun
      cases hqueue : state.queue with
      | nil =>
          rw [hqueue] at hrun
          cases hrun
      | cons queued queue =>
          rw [hqueue] at hrun
          have hstart := h.start hqueue
          have hsame : done ++ [queued] ++ queue = done ++ state.queue := by simp [hqueue]
          have hrooted' : Rooted schema bindings (done ++ [queued] ++ queue) := by
            rwa [hsame]
          rcases bind_eq_error_iff.mp hrun with hfields | ⟨fields, hfields, hrun⟩
          · obtain ⟨name, hunknown, rfl⟩ := Projection.fieldsOf_eq_error_iff.mp hfields
            exact ⟨done, state, h, .unknown (by simp [hqueue]) hunknown⟩
          obtain ⟨-, rfl⟩ := Projection.fieldsOf_eq_ok_iff.mp hfields
          rcases bind_eq_error_iff.mp hrun with hfold | ⟨next, hfold, hrun⟩
          · obtain ⟨state', hsearch, hblocked⟩ :=
              hstart.blocked_of_followFields hrooted' (by simp) (List.Subset.refl _) hfold
            exact ⟨_, state', hsearch, hblocked⟩
          obtain ⟨hsearch, hgrow, -⟩ := h.next hrooted hqueue hfold
          rcases bind_eq_error_iff.mp hrun with hrest | ⟨classes, -, hpure⟩
          · exact ih hsearch (hrooted.mono hgrow) hrest
          · exact absurd hpure pure_ne_error

/-- **Reaching the types of bindings** one after the other visits each of them. -/
theorem searching_of_reachRoots (policy : ListPolicy) {state : Discovery}
    {roots : List Binding}
    (hroots : ∀ binding ∈ roots, binding ∈ bindings ∧ binding.isScalar = false)
    (h : roots.foldlM (fun state binding => reach operation state (.ofBinding schema binding))
      { reached := [], queue := [] } = .ok state) :
    Searching schema policy bindings [] state ∧
      ∀ binding ∈ roots, Recorded state.queue (.ofBinding schema binding) := by
  refine foldlM_induction (motive := fun seen current =>
    Searching schema policy bindings [] current ∧
      ∀ binding ∈ seen, Recorded current.queue (.ofBinding schema binding)) h
    ⟨⟨rfl, List.nodup_nil, fun _ hmem => absurd hmem List.not_mem_nil⟩,
      fun _ hmem => absurd hmem List.not_mem_nil⟩ ?_
  rintro seen binding rest current next hsplit ⟨hsearch, hrecorded⟩ hstep
  obtain ⟨hbinding, hscalar⟩ := hroots binding (by simp [hsplit])
  obtain ⟨hsearch', hsub, hnew⟩ := hsearch.reach (.root hbinding hscalar) hstep
  refine ⟨hsearch', fun other hother => ?_⟩
  rcases List.mem_append.mp hother with hold | heq
  · exact (hrecorded other hold).mono hsub
  · exact (List.mem_singleton.mp heq) ▸ hnew

/-- The bindings that hold objects. -/
theorem mem_roots_iff {binding : Binding} :
    binding ∈ bindings.filter (fun binding => !binding.isScalar) ↔
      binding ∈ bindings ∧ binding.isScalar = false := by
  rw [List.mem_filter, Bool.not_eq_true']

/-- After its first part the search has visited the types of the bindings. -/
theorem rooted_of_reachRoots (policy : ListPolicy) {state : Discovery}
    (h : reachRoots schema operation bindings = .ok state) :
    Searching schema policy bindings [] state ∧ Rooted schema bindings state.queue := by
  obtain ⟨hsearch, hrecorded⟩ :=
    searching_of_reachRoots policy (fun _ hmem => mem_roots_iff.mp hmem) h
  exact ⟨hsearch, fun binding hbinding hscalar =>
    hrecorded binding (mem_roots_iff.mpr ⟨hbinding, hscalar⟩)⟩

/-- **A search that succeeds** gives the classes of the types that it has discovered. -/
theorem exists_discovered {classes : List ClassDecl}
    (h : innerClasses schema operation bindings policy = .ok classes) :
    ∃ visited, Discovered schema policy bindings visited ∧
      classes = visited.map QueuedType.decl := by
  rw [innerClasses, bind_eq_ok_iff] at h
  obtain ⟨state, hroots, hrun⟩ := h
  obtain ⟨hsearch, hrooted⟩ := rooted_of_reachRoots policy hroots
  exact hsearch.discovered_of_followQueue hrooted
    (fun _ hmem => absurd hmem List.not_mem_nil) le_rfl hrun

/-- **A search that fails** is blocked, after visiting types each once and for a reason. -/
theorem exists_blocked {e : GenerationError}
    (h : innerClasses schema operation bindings policy = .error e) :
    ∃ visited, (visited.map QueuedType.name).Nodup ∧
      (∀ queued ∈ visited, Reached schema policy bindings visited queued) ∧
      Blocked schema operation policy bindings visited e := by
  suffices key : ∃ done state, Searching schema policy bindings done state ∧
      Blocked schema operation policy bindings (done ++ state.queue) e by
    obtain ⟨done, state, hsearch, hblocked⟩ := key
    exact ⟨_, hsearch.nodup, hsearch.reached, hblocked⟩
  rw [innerClasses, bind_eq_error_iff] at h
  rcases h with hroots | ⟨state, hroots, hrun⟩
  · obtain ⟨seen, binding, rest, state, hsplit, hprefix, hstep⟩ :=
      exists_step_of_foldlM_eq_error hroots
    have hseen : ∀ other ∈ seen ++ binding :: rest,
        other ∈ bindings ∧ other.isScalar = false := by
      rw [← hsplit]
      exact fun _ hmem => mem_roots_iff.mp hmem
    obtain ⟨hsearch, -⟩ := searching_of_reachRoots policy
      (fun other hmem => hseen other (List.mem_append_left _ hmem)) hprefix
    obtain ⟨hbinding, hscalar⟩ := hseen binding (by simp)
    exact ⟨[], state, hsearch, hsearch.blocked_of_reach (.root hbinding hscalar) hstep⟩
  · obtain ⟨hsearch, hrooted⟩ := rooted_of_reachRoots policy hroots
    exact hsearch.blocked_of_followQueue hrooted hrun

end Build

end ClientSdk
