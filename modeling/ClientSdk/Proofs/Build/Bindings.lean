import ClientSdk.Build.Binding
import ClientSdk.Proofs.Projection.Declared

/-!
# Bindings of an Operation

The bindings of an operation are read from its variables and from what it selects. A variable
gives one binding. The entries of the selection set give one binding for each response key,
whose projection includes what is selected under that key.

## Main definitions

* `Operation.selects`: the paths that an operation selects under a response key.
* `Build.Collects`: a binding collects the entries of its response key.

## Main results

* `variableBinding_eq_ok_iff`: the binding of a variable.
* `bindings_of_responseBindings`: the bindings of a selection set.
-/

namespace ClientSdk

/-! ### Selected paths -/

/-- The entry is a field that is answered under `key`, and selects `path` below it. -/
def Selection.answers (key : String) (path : List String) : Selection → Bool
  | .field name alias? selections =>
    alias?.getD name == key && Selection.selectsPath selections path
  | .spread _ => false
  | .inlineFragment _ => false

/-- The operation selects `path` below the response key `key`, in one of its entries. -/
def Operation.selects (operation : Operation) (key : String) (path : List String) : Bool :=
  operation.selections.any (Selection.answers key path)

/-- The response keys of the entries, in order. -/
def responseKeys (selections : List Selection) : List String :=
  selections.filterMap Selection.responseKey?

/-! ### Parameters -/

/-- The member type of a reference is a name exactly when the reference is no list. -/
theorem MemberType.ofRef_eq_named_iff {type : TypeRef} {name : String} {nullable : Bool} :
    MemberType.ofRef type = .named name nullable ↔
      type.isList = false ∧ memberName type.leafName = name ∧ type.nullable = nullable := by
  cases type with
  | named leaf level => simp [ofRef, TypeRef.isList, TypeRef.leafName, TypeRef.nullable]
  | list element level => simp [ofRef, TypeRef.isList]

/-- Marking the last parameter changes its mark and no more. -/
theorem Parameter.getElem?_markLast (params : List Parameter) (i : Nat) :
    (markLast params)[i]? =
      params[i]?.map fun param => { param with isLast := decide (i + 1 = params.length) } := by
  induction params using markLast.induct generalizing i with
  | case1 => rfl
  | case2 param => cases i <;> simp [markLast]
  | case3 param params hne ih =>
      rw [markLast]
      · cases i with
        | zero => simpa using hne
        | succ i => simp [ih]
      · exact hne

/-- Marking the last parameter keeps names and types. -/
theorem Parameter.map_members_markLast (params : List Parameter) :
    (markLast params).map (fun param => (param.name, param.type)) =
      params.map fun param => (param.name, param.type) := by
  refine List.ext_getElem? fun i => ?_
  rw [List.getElem?_map, List.getElem?_map, getElem?_markLast, Option.map_map]
  rfl

/-- Marking the last parameter keeps the names. -/
theorem Parameter.map_name_markLast (params : List Parameter) :
    (markLast params).map (·.name) = params.map (·.name) := by
  simpa [Function.comp_def] using congrArg (List.map Prod.fst) (map_members_markLast params)

/-- Marking the last parameter changes no more than the marks. -/
theorem Parameter.exists_mem_markLast {params : List Parameter} {param : Parameter}
    (h : param ∈ params) :
    ∃ marked ∈ markLast params, marked.name = param.name ∧ marked.type = param.type := by
  have hmem : (param.name, param.type) ∈
      (markLast params).map fun param => (param.name, param.type) := by
    rw [map_members_markLast]
    exact List.mem_map.mpr ⟨param, h, rfl⟩
  obtain ⟨marked, hmarked, hsame⟩ := List.mem_map.mp hmem
  exact ⟨marked, hmarked, Prod.mk.inj hsame⟩

/-- A parameter of a marked list is an old one but for its mark. -/
theorem Parameter.exists_mem_of_mem_markLast {params : List Parameter} {marked : Parameter}
    (h : marked ∈ markLast params) :
    ∃ param ∈ params, param.name = marked.name ∧ param.type = marked.type := by
  have hmem : (marked.name, marked.type) ∈
      params.map fun param => (param.name, param.type) := by
    rw [← map_members_markLast]
    exact List.mem_map.mpr ⟨marked, h, rfl⟩
  obtain ⟨param, hparam, hsame⟩ := List.mem_map.mp hmem
  exact ⟨param, hparam, Prod.mk.inj hsame⟩

/-- A pick list fails at a name that is no field. -/
theorem Projection.exists_of_pickEntries_eq_error {var : Variable} {type : TypeDef}
    {names : List String} {entries : List (String × Projection)} {e : GenerationError}
    (h : pickEntries var type entries names = .error e) :
    ∃ name, e = .unknownPickedField var.name name type.name := by
  induction names generalizing entries with
  | nil => cases h
  | cons first names ih =>
      rw [pickEntries] at h
      split at h
      · exact ih h
      · exact ⟨first, (Except.error.inj h).symm⟩

/-- A variable has no projection where it picks what is no field. -/
theorem Projection.exists_of_ofPick_eq_error {var : Variable} {type : TypeDef}
    {e : GenerationError} (h : ofPick var type = .error e) :
    ∃ name, e = .unknownPickedField var.name name type.name := by
  rw [ofPick] at h
  split at h
  · cases h
  · exact exists_of_pickEntries_eq_error (map_eq_error_iff.mp h)

namespace Build

variable {schema : Schema} {operation : Operation}

/-! ### Variables -/

/-- The binding of a variable has its name and its type, the definition that the type refers to,
and the projection of its pick list. -/
theorem variableBinding_eq_ok_iff {name : String} {var : Variable} {binding : Binding} :
    variableBinding schema name var = .ok binding ↔
      binding.name = var.name ∧ binding.type = var.type ∧
        schema.get? var.type.leafName = some binding.definition ∧
        Projection.ofPick var binding.definition = .ok binding.projection := by
  simp only [variableBinding, bind_eq_ok_iff, pure_eq_ok_iff, Augment.typeNamed_eq_ok_iff]
  constructor
  · rintro ⟨definition, hget, p, hp, rfl⟩
    exact ⟨rfl, rfl, hget, hp⟩
  · rintro ⟨hname, htype, hget, hp⟩
    obtain ⟨name, type, definition, p⟩ := binding
    obtain rfl : name = var.name := hname
    obtain rfl : type = var.type := htype
    exact ⟨definition, hget, p, hp, rfl⟩

/-- A binding of a variable list belongs to one of the variables. -/
theorem exists_variable_of_mem {bindings : List Binding}
    (h : variableBindings schema operation = .ok bindings) {binding : Binding}
    (hbinding : binding ∈ bindings) :
    ∃ var ∈ operation.vars, variableBinding schema operation.name var = .ok binding :=
  exists_of_mem_mapM h hbinding

/-- Variables cannot be bound where a type is missing, or where one picks what is no field. -/
theorem kind_of_variableBindings_eq_error {e : GenerationError}
    (h : variableBindings schema operation = .error e) :
    e.kind ∈ ["SchemaConsistency", "UnknownPickedField"] := by
  obtain ⟨var, -, hvar⟩ := exists_of_mapM_eq_error h
  rcases bind_eq_error_iff.mp hvar with htype | ⟨definition, -, hvar⟩
  · obtain ⟨-, rfl⟩ := Augment.typeNamed_eq_error_iff.mp htype
    exact List.mem_cons_self
  · obtain ⟨name, rfl⟩ := Projection.exists_of_ofPick_eq_error (eq_error_of_bind_pure hvar)
    exact List.mem_cons_of_mem _ List.mem_cons_self

/-! ### Merging -/

/-- Merging into a binding that is there changes its projection only. -/
theorem mergeBinding_of_mem {key : String} {p : Projection}
    {fresh : Except GenerationError Binding} {bindings : List Binding}
    (hnodup : (bindings.map (·.name)).Nodup) (hkey : key ∈ bindings.map (·.name)) :
    mergeBinding key p fresh bindings = .ok (bindings.map fun binding =>
      if binding.name = key then { binding with projection := binding.projection.merge p }
      else binding) := by
  induction bindings with
  | nil => exact absurd hkey List.not_mem_nil
  | cons binding rest ih =>
      rw [List.map_cons, List.nodup_cons] at hnodup
      rw [mergeBinding]
      by_cases hname : binding.name = key
      · rw [if_pos hname, List.map_cons, if_pos hname]
        congr 2
        symm
        refine (List.map_congr_left fun other hother => if_neg ?_).trans (List.map_id rest)
        rintro rfl
        exact hnodup.1 (hname ▸ List.mem_map_of_mem hother)
      · rw [if_neg hname, List.map_cons, if_neg hname, ih hnodup.2 ?_]
        · rfl
        · exact (List.mem_cons.mp hkey).resolve_left fun h => hname h.symm

/-- Merging under a new key adds a binding at the end. -/
theorem mergeBinding_of_notMem {key : String} {p : Projection}
    {fresh : Except GenerationError Binding} {bindings : List Binding}
    (hkey : key ∉ bindings.map (·.name)) :
    mergeBinding key p fresh bindings = (fun binding => bindings ++ [binding]) <$> fresh := by
  induction bindings with
  | nil => rfl
  | cons binding rest ih =>
      rw [List.map_cons, List.mem_cons, not_or] at hkey
      rw [mergeBinding, if_neg (Ne.symm hkey.1), ih hkey.2]
      cases fresh with
      | error e => rfl
      | ok new => rfl

/-! ### Responses -/

/-- Adding an entry of the selection set reads a field of the root and the projection of what is
selected below it, and merges them into the bindings. -/
theorem addResponseBinding_eq_ok_iff {bindings result : List Binding} {entry : Selection} :
    addResponseBinding schema operation bindings entry = .ok result ↔
      ∃ name alias? selections field p, entry = .field name alias? selections ∧
        (schema.root operation.kind).field? name = some field ∧
        Projection.ofSelections (operation.name ++ "." ++ alias?.getD name) selections = .ok p ∧
        mergeBinding (alias?.getD name) p (responseBinding schema (schema.root operation.kind)
          field (alias?.getD name) p) bindings = .ok result := by
  cases entry with
  | spread fragment => simp [addResponseBinding]
  | inlineFragment condition => simp [addResponseBinding]
  | field name alias? selections =>
      rw [addResponseBinding]
      cases hfield : (schema.root operation.kind).field? name with
      | none =>
          constructor
          · intro h
            cases h
          · rintro ⟨_, _, _, _, _, heq, hfield', -⟩
            obtain ⟨rfl, -, -⟩ := Selection.field.inj heq
            rw [hfield] at hfield'
            cases hfield'
      | some field =>
          dsimp only
          rw [bind_eq_ok_iff]
          constructor
          · rintro ⟨p, hp, hmerge⟩
            exact ⟨name, alias?, selections, field, p, rfl, hfield, hp, hmerge⟩
          · rintro ⟨_, _, _, field', p, heq, hfield', hp, hmerge⟩
            obtain ⟨rfl, rfl, rfl⟩ := Selection.field.inj heq
            obtain rfl := Option.some.inj (hfield.symm.trans hfield')
            exact ⟨p, hp, hmerge⟩

/-- The binding of a root field has the type of the field. -/
theorem responseBinding_eq_ok_iff {root : TypeDef} {field : FieldDef} {key : String}
    {p : Projection} {binding : Binding} :
    responseBinding schema root field key p = .ok binding ↔
      binding.name = key ∧ binding.type = field.type ∧
        schema.get? field.type.leafName = some binding.definition ∧ binding.projection = p := by
  simp only [responseBinding, bind_eq_ok_iff, pure_eq_ok_iff, Augment.typeNamed_eq_ok_iff]
  constructor
  · rintro ⟨definition, hget, rfl⟩
    exact ⟨rfl, rfl, hget, rfl⟩
  · rintro ⟨hname, htype, hget, hp⟩
    obtain ⟨name, type, definition, p'⟩ := binding
    obtain rfl : name = key := hname
    obtain rfl : type = field.type := htype
    obtain rfl : p' = p := hp
    exact ⟨definition, hget, rfl⟩

/-- The binding collects those of the entries that are answered under its name. -/
structure Collects (schema : Schema) (root : TypeDef) (entries : List Selection)
    (binding : Binding) : Prop where
  /-- Its projection is sorted. -/
  ordered : Projection.Ordered binding.projection
  /-- Its projection includes what the entries select. -/
  includesPath_eq : ∀ path,
    binding.projection.includesPath path = entries.any (Selection.answers binding.name path)
  /-- The first of the entries names the field of the root that gives its type. -/
  exists_field : ∃ name alias? selections field,
    .field name alias? selections ∈ entries ∧ alias?.getD name = binding.name ∧
      root.field? name = some field ∧ binding.type = field.type ∧
      schema.get? field.type.leafName = some binding.definition
  /-- Its projection names declared fields when the entries do. -/
  namesFields : (∀ name alias? selections, .field name alias? selections ∈ entries →
      alias?.getD name = binding.name →
      Selection.namesFields schema selections binding.definition = true) →
    Projection.NamesFields schema binding.definition binding.projection

section Collects

variable {root : TypeDef} {entries : List Selection} {name : String} {alias? : Option String}
  {selections : List Selection} {p : Projection} {location : String} {binding : Binding}

/-- An entry with another response key adds nothing to a binding. -/
theorem Collects.snoc_of_ne (h : Collects schema root entries binding)
    (hkey : binding.name ≠ alias?.getD name) :
    Collects schema root (entries ++ [.field name alias? selections]) binding := by
  refine ⟨h.ordered, fun path => ?_, ?_, fun hnames => h.namesFields ?_⟩
  · rw [h.includesPath_eq, List.any_append]
    simp [Selection.answers, hkey.symm]
  · obtain ⟨first, firstAlias?, below, field, hmem, hfield⟩ := h.exists_field
    exact ⟨first, firstAlias?, below, field, List.mem_append_left _ hmem, hfield⟩
  · intro other otherAlias? below hmem
    exact hnames other otherAlias? below (List.mem_append_left _ hmem)

/-- An entry with the response key of a binding adds what it selects. -/
theorem Collects.snoc_merge (h : Collects schema root entries binding)
    (hkey : binding.name = alias?.getD name)
    (hp : Projection.ofSelections location selections = .ok p) :
    Collects schema root (entries ++ [.field name alias? selections])
      { binding with projection := binding.projection.merge p } := by
  have hordered := Projection.ordered_of_ofSelections hp
  refine ⟨h.ordered.merge hordered, fun path => ?_, ?_, fun hnames => ?_⟩
  · rw [Projection.includesPath_merge h.ordered hordered, h.includesPath_eq, List.any_append,
      Projection.includesPath_of_ofSelections hp]
    simp [Selection.answers, hkey]
  · obtain ⟨first, firstAlias?, below, field, hmem, hfield⟩ := h.exists_field
    exact ⟨first, firstAlias?, below, field, List.mem_append_left _ hmem, hfield⟩
  · refine (h.namesFields ?_).merge (Projection.namesFields_of_ofSelections hp ?_)
    · intro other otherAlias? below hmem
      exact hnames other otherAlias? below (List.mem_append_left _ hmem)
    · exact hnames name alias? selections (by simp) hkey.symm

/-- The first entry with a response key gives a binding. -/
theorem collects_snoc_new {field : FieldDef} (hnew : alias?.getD name ∉ responseKeys entries)
    (hfield : root.field? name = some field)
    (hp : Projection.ofSelections location selections = .ok p)
    (hbinding : responseBinding schema root field (alias?.getD name) p = .ok binding) :
    Collects schema root (entries ++ [.field name alias? selections]) binding := by
  obtain ⟨hname, htype, hget, rfl⟩ := responseBinding_eq_ok_iff.mp hbinding
  have hnone : ∀ path, entries.any (Selection.answers binding.name path) = false := by
    intro path
    rw [List.any_eq_false]
    intro entry hentry
    cases entry with
    | spread fragment => simp [Selection.answers]
    | inlineFragment condition => simp [Selection.answers]
    | field other otherAlias? below =>
        have hne : otherAlias?.getD other ≠ binding.name := by
          intro heq
          exact hnew (List.mem_filterMap.mpr
            ⟨_, hentry, by rw [Selection.responseKey?, heq, hname]⟩)
        simp [Selection.answers, hne]
  refine ⟨Projection.ordered_of_ofSelections hp, fun path => ?_, ?_, fun hnames => ?_⟩
  · rw [List.any_append, hnone, Projection.includesPath_of_ofSelections hp]
    simp [Selection.answers, hname]
  · exact ⟨name, alias?, selections, field, by simp, hname.symm, hfield, htype, hget⟩
  · exact Projection.namesFields_of_ofSelections hp
      (hnames name alias? selections (by simp) hname.symm)

end Collects

/-- Distinct keys stay distinct when the duplicates of a list of keys are dropped. -/
theorem nodup_eraseDups (keys : List String) : keys.eraseDups.Nodup := by
  induction h : keys.length using Nat.strong_induction_on generalizing keys with
  | _ n ih =>
      cases keys with
      | nil => simp
      | cons key rest =>
          rw [List.eraseDups_cons, List.nodup_cons, List.mem_eraseDups]
          refine ⟨by simp, ih _ ?_ _ rfl⟩
          have hle := List.length_filter_le (fun other => !other == key) rest
          simp only [List.length_cons] at h
          omega

/-- A key that is seen again leaves the keys as they are. -/
theorem eraseDups_snoc_of_mem {keys : List String} {key : String} (h : key ∈ keys) :
    (keys ++ [key]).eraseDups = keys.eraseDups := by
  simp [List.eraseDups_append, List.removeAll, h]

/-- A new key comes after the keys that were seen before it. -/
theorem eraseDups_snoc_of_notMem {keys : List String} {key : String} (h : key ∉ keys) :
    (keys ++ [key]).eraseDups = keys.eraseDups ++ [key] := by
  simp [List.eraseDups_append, List.removeAll, List.eraseDups_cons, h]

/-- **The bindings of a selection set**: one for each response key, in the order in which the
keys are first seen, which collects the entries of that key. -/
theorem bindings_of_responseBindings {bindings : List Binding}
    (h : responseBindings schema operation = .ok bindings) :
    bindings.map (·.name) = (responseKeys operation.selections).eraseDups ∧
      ∀ binding ∈ bindings,
        Collects schema (schema.root operation.kind) operation.selections binding := by
  refine foldlM_induction (motive := fun seen current =>
    current.map (·.name) = (responseKeys seen).eraseDups ∧
      ∀ binding ∈ current, Collects schema (schema.root operation.kind) seen binding) h
    ⟨rfl, fun _ hmem => absurd hmem List.not_mem_nil⟩ ?_
  rintro seen entry rest current next - ⟨hnames, hcollects⟩ hstep
  obtain ⟨name, alias?, selections, field, p, rfl, hfield, hp, hmerge⟩ :=
    addResponseBinding_eq_ok_iff.mp hstep
  have hkeys : responseKeys (seen ++ [.field name alias? selections]) =
      responseKeys seen ++ [alias?.getD name] := by
    simp [responseKeys, Selection.responseKey?]
  rw [hkeys]
  by_cases hkey : alias?.getD name ∈ responseKeys seen
  · rw [mergeBinding_of_mem (hnames ▸ nodup_eraseDups _)
      (hnames ▸ List.mem_eraseDups.mpr hkey)] at hmerge
    obtain rfl := Except.ok.inj hmerge
    constructor
    · rw [eraseDups_snoc_of_mem hkey, ← hnames, List.map_map]
      refine List.map_congr_left fun binding _ => ?_
      by_cases hname : binding.name = alias?.getD name
      · simp [hname]
      · simp [hname]
    · intro binding hbinding
      obtain ⟨old, hold, rfl⟩ := List.mem_map.mp hbinding
      split
      · rename_i hname
        exact (hcollects old hold).snoc_merge hname hp
      · rename_i hname
        exact (hcollects old hold).snoc_of_ne hname
  · rw [mergeBinding_of_notMem (hnames ▸ fun hmem => hkey (List.mem_eraseDups.mp hmem)),
      map_eq_ok_iff] at hmerge
    obtain ⟨new, hnew, rfl⟩ := hmerge
    have hname : new.name = alias?.getD name := (responseBinding_eq_ok_iff.mp hnew).1
    constructor
    · rw [List.map_append, hnames, List.map_singleton, hname, eraseDups_snoc_of_notMem hkey]
    · intro binding hbinding
      rcases List.mem_append.mp hbinding with hold | heq
      · refine (hcollects binding hold).snoc_of_ne fun hsame => hkey ?_
        rw [← List.mem_eraseDups, ← hnames, ← hsame]
        exact List.mem_map_of_mem hold
      · exact (List.mem_singleton.mp heq) ▸ collects_snoc_new hkey hfield hp hnew

/-! ### Selections that cannot be read -/

mutual

/-- A selection that cannot be read is unsupported, or so is something below it. -/
theorem kind_of_selectEntry_eq_error {e : GenerationError} (location : String)
    (entries : List (String × Projection)) :
    (selection : Selection) → Projection.selectEntry location entries selection = .error e →
      e.kind = "UnsupportedSelection"
  | .field name alias? below => by
      intro h
      rw [Projection.selectEntry] at h
      dsimp only at h
      split at h
      · obtain rfl := Except.error.inj h
        rfl
      · split at h
        · cases h
        · have hbelow := eq_error_of_bind_pure h
          exact kind_of_selectEntries_eq_error _ _ below (map_eq_error_iff.mp hbelow)
  | .spread fragment => by
      intro h
      rw [Projection.selectEntry] at h
      obtain rfl := Except.error.inj h
      rfl
  | .inlineFragment condition => by
      intro h
      rw [Projection.selectEntry] at h
      obtain rfl := Except.error.inj h
      rfl

/-- A selection set that cannot be read has an unsupported entry. -/
theorem kind_of_selectEntries_eq_error {e : GenerationError} (location : String)
    (entries : List (String × Projection)) :
    (selections : List Selection) →
      Projection.selectEntries location entries selections = .error e →
      e.kind = "UnsupportedSelection"
  | [] => by
      intro h
      simp [Projection.selectEntries] at h
  | selection :: rest => by
      intro h
      rw [Projection.selectEntries, bind_eq_error_iff] at h
      rcases h with hfirst | ⟨middle, -, hrest⟩
      · exact kind_of_selectEntry_eq_error location entries selection hfirst
      · exact kind_of_selectEntries_eq_error location middle rest hrest

end

/-- Merging fails only where a fresh binding is called for and cannot be made. -/
theorem fresh_eq_error_of_mergeBinding {key : String} {p : Projection} {e : GenerationError}
    {fresh : Except GenerationError Binding} {bindings : List Binding}
    (h : mergeBinding key p fresh bindings = .error e) : fresh = .error e := by
  induction bindings with
  | nil =>
      rw [mergeBinding] at h
      exact eq_error_of_bind_pure h
  | cons binding rest ih =>
      rw [mergeBinding] at h
      split at h
      · cases h
      · exact ih (eq_error_of_bind_pure h)

/-- What an operation selects cannot be read where an entry is unsupported, names no field of the
root, or has a type that is missing. -/
theorem kind_of_responseBindings_eq_error {e : GenerationError}
    (h : responseBindings schema operation = .error e) :
    e.kind ∈ ["UnsupportedSelection", "UnknownField", "SchemaConsistency"] := by
  obtain ⟨_, entry, _, bindings, _, _, hstep⟩ := exists_step_of_foldlM_eq_error h
  cases entry with
  | spread fragment =>
      obtain rfl := Except.error.inj hstep
      exact List.mem_cons_self
  | inlineFragment condition =>
      obtain rfl := Except.error.inj hstep
      exact List.mem_cons_self
  | field name alias? selections =>
      rw [addResponseBinding] at hstep
      dsimp only at hstep
      split at hstep
      · obtain rfl := Except.error.inj hstep
        exact List.mem_cons_of_mem _ List.mem_cons_self
      · rw [bind_eq_error_iff] at hstep
        rcases hstep with hselect | ⟨p, -, hmerge⟩
        · rw [Projection.ofSelections] at hselect
          split at hselect
          · cases hselect
          · have hentries := map_eq_error_iff.mp hselect
            rw [kind_of_selectEntries_eq_error _ _ _ hentries]
            exact List.mem_cons_self
        · have hfresh := fresh_eq_error_of_mergeBinding hmerge
          rw [responseBinding] at hfresh
          have htype := eq_error_of_bind_pure hfresh
          rw [Augment.typeNamed] at htype
          split at htype
          · cases htype
          · obtain rfl := Except.error.inj htype
            simp [GenerationError.kind]

end Build

end ClientSdk
