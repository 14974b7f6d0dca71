import ClientSdk.Proofs.Fallible
import ClientSdk.Proofs.Projection.Entries

/-!
# Paths of a Projection

A projection is a tree, and what it means is the set of field paths that it includes. This
module gives that meaning, and beside it the paths that a selection set selects, read off the
selections themselves. Making a projection of a selection set keeps its paths, and a union of
projections includes the paths of both.

## Main definitions

* `Projection.includesPath`: the paths that a projection includes.
* `Selection.selectsPath`: the paths that a selection set selects.
* `Projection.Ordered`: a projection whose maps are sorted at every depth.

## Main results

* `Projection.includesPath_merge`: a union includes the paths of both projections.
* `Projection.includesPath_of_ofSelections`: the projection of a selection set includes the
  paths that are selected.
* `Projection.lookup_of_pickEntries`: a pick list gives the picked fields, each with all of its
  own.
-/

namespace ClientSdk

/-! ### Paths -/

namespace Projection

/-- Every field on `path`, from the type of the projection on, takes part. -/
def includesPath : Projection → List String → Bool
  | _, [] => true
  | p, name :: path => p.includes name && (p.child name).includesPath path

@[simp] theorem includesPath_nil (p : Projection) : p.includesPath [] = true := by
  rw [includesPath]

theorem includesPath_cons (p : Projection) (name : String) (path : List String) :
    p.includesPath (name :: path) = (p.includes name && (p.child name).includesPath path) := by
  rw [includesPath]

/-- The projection on all fields includes every path. -/
@[simp] theorem includesPath_all (path : List String) : all.includesPath path = true := by
  induction path with
  | nil => rfl
  | cons name path ih => simp [includesPath_cons, includes, child, ih]

/-- A path starts with an entry of the map and goes on in its projection. -/
theorem includesPath_fields_cons (entries : List (String × Projection)) (name : String)
    (path : List String) :
    (fields entries).includesPath (name :: path) =
      (entries.lookup name).any fun p => p.includesPath path := by
  rw [includesPath_cons, includes, child]
  cases entries.lookup name with
  | none => rfl
  | some p => rfl

end Projection

namespace Selection

/-- What is selected below the field called `name`, when the selection is that field. -/
def below? (name : String) : Selection → Option (List Selection)
  | field first _ selections => if first = name then some selections else none
  | spread _ => none
  | inlineFragment _ => none

theorem below?_field (first name : String) (alias? : Option String)
    (selections : List Selection) :
    (field first alias? selections).below? name =
      if first = name then some selections else none :=
  rfl

/-- The path starts with a field that one of the selections names and goes on in what is
selected below it. Where nothing is selected, every path counts as selected. -/
def selectsPath : List Selection → List String → Bool
  | _, [] => true
  | selections, name :: path =>
    selections.isEmpty ||
      selections.any fun selection => (selection.below? name).any (selectsPath · path)

@[simp] theorem selectsPath_nil (selections : List Selection) :
    selectsPath selections [] = true := by
  rw [selectsPath]

theorem selectsPath_cons (selections : List Selection) (name : String) (path : List String) :
    selectsPath selections (name :: path) = (selections.isEmpty ||
      selections.any fun selection => (selection.below? name).any (selectsPath · path)) := by
  rw [selectsPath]

end Selection

namespace Projection

/-! ### Sorted projections -/

/-- The maps of a projection are sorted, at every depth. -/
inductive Ordered : Projection → Prop
  | all : Ordered all
  | fields {entries : List (String × Projection)} :
      Sorted entries → (∀ entry ∈ entries, Ordered entry.2) → Ordered (fields entries)

/-- Without fields there is nothing to sort. -/
theorem ordered_fields_nil : Ordered (fields []) :=
  .fields List.Pairwise.nil fun _ h => absurd h List.not_mem_nil

/-- What look-up finds in a sorted projection is sorted. -/
theorem Ordered.of_lookup {entries : List (String × Projection)} {name : String}
    {p : Projection} (h : Ordered (.fields entries)) (hp : entries.lookup name = some p) :
    Ordered p := by
  cases h with
  | fields _ hchildren => exact hchildren _ (mem_of_lookup_eq_some hp)

/-- The child of a sorted projection is sorted. -/
theorem Ordered.child {p : Projection} (h : Ordered p) (name : String) :
    Ordered (p.child name) := by
  cases p with
  | all => exact .all
  | fields entries =>
      rw [Projection.child]
      cases hlookup : entries.lookup name with
      | none => exact .all
      | some q => exact h.of_lookup hlookup

/-- A sorted projection stays sorted when a sorted projection is put under a name. -/
theorem Ordered.alter {entries : List (String × Projection)} {key : String}
    {f : Option Projection → Projection} (h : Ordered (.fields entries))
    (hf : Ordered (f (entries.lookup key))) : Ordered (.fields (alter key f entries)) := by
  cases h with
  | fields hsorted hchildren =>
      refine .fields (sorted_alter hsorted key f) ?_
      rintro ⟨name, p⟩ hentry
      rw [mem_iff_lookup (sorted_alter hsorted key f), lookup_alter hsorted] at hentry
      by_cases hname : name = key
      · rw [if_pos hname] at hentry
        exact Option.some.inj hentry ▸ hf
      · rw [if_neg hname] at hentry
        exact hchildren _ (mem_of_lookup_eq_some hentry)

/-! ### Unions -/

/-- The union with `q` keeps order and includes the paths of both projections. -/
private def UnitesPaths (q : Projection) : Prop :=
  ∀ p, Ordered p → Ordered (merge p q) ∧
    ∀ path, (merge p q).includesPath path = (p.includesPath path || q.includesPath path)

/-- Adding a projection under a name, in union with the one that is there, adds its paths
after that name. -/
private theorem alter_merge_spec (key : String) {entries : List (String × Projection)}
    {q : Projection} (h : Ordered (fields entries)) (hq : Ordered q) (hunite : UnitesPaths q) :
    Ordered (fields (alter key (fun found? => found?.elim q (merge · q)) entries)) ∧
      ∀ name path,
        (fields (alter key (fun found? => found?.elim q (merge · q)) entries)).includesPath
            (name :: path) =
          ((fields entries).includesPath (name :: path) ||
            (key == name && q.includesPath path)) := by
  constructor
  · refine h.alter ?_
    cases hlookup : entries.lookup key with
    | none => exact hq
    | some p => exact (hunite p (h.of_lookup hlookup)).1
  · intro name path
    have hsorted : Sorted entries := by
      cases h with
      | fields hsorted _ => exact hsorted
    rw [includesPath_fields_cons, includesPath_fields_cons, lookup_alter hsorted]
    by_cases hname : name = key
    · subst hname
      rw [if_pos rfl]
      cases hlookup : entries.lookup name with
      | none => simp
      | some p => simp [(hunite p (h.of_lookup hlookup)).2]
    · rw [if_neg hname, beq_eq_false_iff_ne.mpr (Ne.symm hname)]
      simp

/-- The entries of a second map go one by one into the first. -/
private theorem mergeEntries_spec {a b : List (String × Projection)} (ha : Ordered (fields a))
    (hb : ∀ entry ∈ b, Ordered entry.2) (hunite : ∀ entry ∈ b, UnitesPaths entry.2) :
    Ordered (fields (mergeEntries a b)) ∧ ∀ name path,
      (fields (mergeEntries a b)).includesPath (name :: path) =
        ((fields a).includesPath (name :: path) ||
          b.any fun entry => entry.1 == name && entry.2.includesPath path) := by
  induction b generalizing a with
  | nil =>
      rw [mergeEntries]
      exact ⟨ha, fun name path => by simp⟩
  | cons entry rest ih =>
      obtain ⟨key, q⟩ := entry
      obtain ⟨hadd, hpaths⟩ := alter_merge_spec key ha (hb _ List.mem_cons_self)
        (hunite _ List.mem_cons_self)
      obtain ⟨hordered, hrest⟩ := ih hadd
        (fun entry hentry => hb entry (List.mem_cons_of_mem _ hentry))
        (fun entry hentry => hunite entry (List.mem_cons_of_mem _ hentry))
      rw [mergeEntries]
      refine ⟨hordered, fun name path => ?_⟩
      rw [hrest, hpaths, List.any_cons, Bool.or_assoc]

/-- In a sorted map, some entry called `name` includes the path exactly when the one that
look-up finds does. -/
private theorem any_eq_includesPath {entries : List (String × Projection)}
    (h : Sorted entries) (name : String) (path : List String) :
    (entries.any fun entry => entry.1 == name && entry.2.includesPath path) =
      (fields entries).includesPath (name :: path) := by
  rw [includesPath_fields_cons, Bool.eq_iff_iff]
  simp only [List.any_eq_true, Bool.and_eq_true, beq_iff_eq, Option.any_eq_true]
  constructor
  · rintro ⟨⟨_, q⟩, hmem, rfl, hq⟩
    exact ⟨q, (mem_iff_lookup h).mp hmem, hq⟩
  · rintro ⟨q, hlookup, hq⟩
    exact ⟨(name, q), mem_of_lookup_eq_some hlookup, rfl, hq⟩

/-- Every sorted projection unites its paths. Induction on the projection. -/
private theorem unitesPaths {q : Projection} (hq : Ordered q) : UnitesPaths q := by
  induction hq with
  | all =>
      intro p _
      rw [merge]
      exact ⟨.all, fun path => by simp⟩
  | @fields b hsorted hchildren ih =>
      intro p hp
      cases p with
      | all =>
          rw [merge]
          exact ⟨.all, fun path => by simp⟩
      | fields a =>
          obtain ⟨hordered, hpaths⟩ := mergeEntries_spec hp hchildren ih
          rw [merge]
          refine ⟨hordered, fun path => ?_⟩
          cases path with
          | nil => simp
          | cons name path => rw [hpaths, any_eq_includesPath hsorted]

/-- The union of sorted projections is sorted. -/
theorem Ordered.merge {p q : Projection} (hp : Ordered p) (hq : Ordered q) :
    Ordered (p.merge q) :=
  (unitesPaths hq p hp).1

/-- **A union includes the paths of both projections.** -/
theorem includesPath_merge {p q : Projection} (hp : Ordered p) (hq : Ordered q)
    (path : List String) :
    (p.merge q).includesPath path = (p.includesPath path || q.includesPath path) :=
  (unitesPaths hq p hp).2 path

/-! ### Selections -/

/-- Reading a field adds the projection of its selections to the map; an alias stops it. -/
theorem selectEntry_field_eq_ok_iff {location name : String} {alias? : Option String}
    {below : List Selection} {entries result : List (String × Projection)} :
    selectEntry location entries (.field name alias? below) = .ok result ↔
      alias? = none ∧ ∃ p, ofSelections (location ++ "." ++ name) below = .ok p ∧
        alter name (fun found? => found?.elim p (merge · p)) entries = result := by
  cases alias? with
  | some other => simp [selectEntry]
  | none =>
      by_cases hbelow : below.isEmpty = true
      · simp [selectEntry, ofSelections, hbelow]
      · simp [selectEntry, ofSelections, hbelow, map_eq_ok_iff]

/-- Selections are read one after the other. -/
theorem selectEntries_cons_eq_ok_iff {location : String} {selection : Selection}
    {rest : List Selection} {entries result : List (String × Projection)} :
    selectEntries location entries (selection :: rest) = .ok result ↔
      ∃ middle, selectEntry location entries selection = .ok middle ∧
        selectEntries location middle rest = .ok result := by
  rw [selectEntries, bind_eq_ok_iff]

/-- `result` is `entries` with the paths that one of the selections selects. -/
private def AddsPaths (entries : List (String × Projection)) (selections : List Selection)
    (result : List (String × Projection)) : Prop :=
  Ordered (fields result) ∧ ∀ name path,
    (fields result).includesPath (name :: path) =
      ((fields entries).includesPath (name :: path) || selections.any fun selection =>
        (selection.below? name).any (Selection.selectsPath · path))

/-- The projection has the paths that the selection set selects. -/
private def HasPaths (selections : List Selection) (p : Projection) : Prop :=
  Ordered p ∧ ∀ path, p.includesPath path = Selection.selectsPath selections path

/-- The projection of a selection set has its paths, if its entries add theirs to nothing. -/
private theorem hasPaths_of_addsPaths {location : String} {selections : List Selection}
    {p : Projection} (h : ofSelections location selections = .ok p)
    (hentries : selections.isEmpty = false → ∀ result,
      selectEntries location [] selections = .ok result → AddsPaths [] selections result) :
    HasPaths selections p := by
  rw [ofSelections] at h
  cases hempty : selections.isEmpty with
  | true =>
      rw [hempty, if_pos rfl] at h
      obtain rfl : all = p := Except.ok.inj h
      refine ⟨.all, fun path => ?_⟩
      cases path with
      | nil => simp
      | cons name path =>
          rw [Selection.selectsPath_cons, hempty, includesPath_all, Bool.true_or]
  | false =>
      rw [hempty, if_neg Bool.false_ne_true, map_eq_ok_iff] at h
      obtain ⟨result, hresult, rfl⟩ := h
      obtain ⟨hordered, hpaths⟩ := hentries hempty result hresult
      refine ⟨hordered, fun path => ?_⟩
      cases path with
      | nil => simp
      | cons name path =>
          rw [hpaths, includesPath_fields_cons, Selection.selectsPath_cons, hempty]
          rfl

/-- One field adds the paths that are selected below it. -/
private theorem addsPaths_field {entries : List (String × Projection)} {name : String}
    {alias? : Option String} {below : List Selection} {p : Projection}
    (hordered : Ordered (fields entries)) (hp : HasPaths below p) :
    AddsPaths entries [.field name alias? below]
      (alter name (fun found? => found?.elim p (merge · p)) entries) := by
  obtain ⟨hadd, hpaths⟩ := alter_merge_spec name hordered hp.1 (unitesPaths hp.1)
  refine ⟨hadd, fun first path => ?_⟩
  rw [hpaths, hp.2, List.any_cons, List.any_nil, Bool.or_false, Selection.below?_field]
  by_cases hname : name = first
  · simp [hname]
  · simp [hname, beq_eq_false_iff_ne.mpr hname]

/-- Paths that are added one after the other are added together. -/
private theorem addsPaths_cons {entries middle result : List (String × Projection)}
    {selection : Selection} {rest : List Selection} (h : AddsPaths entries [selection] middle)
    (hrest : AddsPaths middle rest result) : AddsPaths entries (selection :: rest) result := by
  refine ⟨hrest.1, fun name path => ?_⟩
  rw [hrest.2, h.2, List.any_cons, List.any_cons, List.any_nil, Bool.or_false, Bool.or_assoc]

mutual

/-- Reading a selection adds the paths that it selects. -/
private theorem addsPaths_of_selectEntry (location : String)
    (entries : List (String × Projection)) :
    (selection : Selection) → (result : List (String × Projection)) →
      selectEntry location entries selection = .ok result → Ordered (fields entries) →
      AddsPaths entries [selection] result
  | .field name alias? below, result => by
      intro h hordered
      obtain ⟨-, p, hp, rfl⟩ := selectEntry_field_eq_ok_iff.mp h
      refine addsPaths_field hordered (hasPaths_of_addsPaths hp fun _ inner hinner => ?_)
      exact addsPaths_of_selectEntries _ [] below inner hinner ordered_fields_nil
  | .spread fragment, result => by
      intro h
      simp [selectEntry] at h
  | .inlineFragment condition, result => by
      intro h
      simp [selectEntry] at h

/-- Reading a selection set adds the paths that its entries select. -/
private theorem addsPaths_of_selectEntries (location : String)
    (entries : List (String × Projection)) :
    (selections : List Selection) → (result : List (String × Projection)) →
      selectEntries location entries selections = .ok result → Ordered (fields entries) →
      AddsPaths entries selections result
  | [], result => by
      intro h hordered
      obtain rfl : entries = result := by simpa [selectEntries] using h
      exact ⟨hordered, fun name path => by simp⟩
  | selection :: rest, result => by
      intro h hordered
      obtain ⟨middle, hfirst, hrest⟩ := selectEntries_cons_eq_ok_iff.mp h
      have hadd := addsPaths_of_selectEntry location entries selection middle hfirst hordered
      exact addsPaths_cons hadd
        (addsPaths_of_selectEntries location middle rest result hrest hadd.1)

end

private theorem hasPaths_of_ofSelections {location : String} {selections : List Selection}
    {p : Projection} (h : ofSelections location selections = .ok p) : HasPaths selections p :=
  hasPaths_of_addsPaths h fun _ result hresult =>
    addsPaths_of_selectEntries location [] selections result hresult ordered_fields_nil

/-- The projection of a selection set is sorted. -/
theorem ordered_of_ofSelections {location : String} {selections : List Selection}
    {p : Projection} (h : ofSelections location selections = .ok p) : Ordered p :=
  (hasPaths_of_ofSelections h).1

/-- **The projection of a selection set includes the paths that are selected**, and no
others. -/
theorem includesPath_of_ofSelections {location : String} {selections : List Selection}
    {p : Projection} (h : ofSelections location selections = .ok p) (path : List String) :
    p.includesPath path = Selection.selectsPath selections path :=
  (hasPaths_of_ofSelections h).2 path

/-! ### Picks -/

/-- A pick list puts every name on it into the map, with all of its own fields. -/
theorem lookup_of_pickEntries {var : Variable} {type : TypeDef} {names : List String}
    {entries result : List (String × Projection)}
    (h : pickEntries var type entries names = .ok result) (hsorted : Sorted entries) :
    Sorted result ∧ ∀ name,
      result.lookup name = if name ∈ names then some all else entries.lookup name := by
  induction names generalizing entries with
  | nil =>
      obtain rfl : entries = result := by simpa [pickEntries] using h
      exact ⟨hsorted, fun name => by simp⟩
  | cons first names ih =>
      rw [pickEntries] at h
      split at h
      · obtain ⟨hresult, hlookup⟩ := ih h (sorted_alter hsorted _ _)
        refine ⟨hresult, fun name => ?_⟩
        rw [hlookup, lookup_alter hsorted]
        by_cases hfirst : name = first
        · simp [hfirst]
        · simp [hfirst]
      · exact absurd h (by simp)

/-- A variable has all fields where nothing is picked, and otherwise the picked ones, each with
all of its own fields. -/
theorem ofPick_cases {var : Variable} {type : TypeDef} {p : Projection}
    (h : ofPick var type = .ok p) :
    (var.pick = none ∧ p = all) ∨
      ∃ names entries, var.pick = some names ∧ p = fields entries ∧
        pickEntries var type [] names = .ok entries ∧
        ∀ name, entries.lookup name = if name ∈ names then some all else none := by
  rw [ofPick] at h
  cases hpick : var.pick with
  | none =>
      rw [hpick] at h
      exact .inl ⟨rfl, (Except.ok.inj h).symm⟩
  | some names =>
      rw [hpick, map_eq_ok_iff] at h
      obtain ⟨entries, hentries, rfl⟩ := h
      exact .inr ⟨names, entries, rfl, rfl, hentries,
        (lookup_of_pickEntries hentries List.Pairwise.nil).2⟩

/-- A picked field has all of its own fields. -/
theorem child_of_ofPick {var : Variable} {type : TypeDef} {p : Projection}
    (h : ofPick var type = .ok p) (name : String) : p.child name = all := by
  rcases ofPick_cases h with ⟨-, rfl⟩ | ⟨names, entries, -, rfl, -, hlookup⟩
  · rfl
  · rw [child, hlookup]
    split
    · rfl
    · rfl

/-! ### Filtering -/

/-- The fields of a type are those of its projection, unless that names an unknown one. -/
theorem fieldsOf_eq_ok_iff {type : TypeDef} {p : Projection} {fields : List FieldDef} :
    p.fieldsOf type = .ok fields ↔ p.unknownField? type = none ∧
      type.fields.filter (fun field => p.includes field.name) = fields := by
  rw [Projection.fieldsOf]
  cases p.unknownField? type with
  | none => simp
  | some name => simp

/-- The fields of a type cannot be given where its projection names an unknown one. -/
theorem fieldsOf_eq_error_iff {type : TypeDef} {p : Projection} {e : GenerationError} :
    p.fieldsOf type = .error e ↔
      ∃ name, p.unknownField? type = some name ∧ .unknownField type.name name = e := by
  rw [Projection.fieldsOf]
  cases p.unknownField? type with
  | none => simp
  | some name => simp

end Projection

end ClientSdk
