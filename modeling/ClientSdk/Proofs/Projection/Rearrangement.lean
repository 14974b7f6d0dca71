import ClientSdk.Proofs.Projection.NormalForm
import Mathlib.Data.Fintype.EquivFin

/-!
# Rearranged Selections

The order of a selection set, and the number of entries in which the fields below a field are
written, leave no trace in its projection: a sorted projection is determined by the paths that it
includes, and the paths that are selected do not depend on either. In the same way a pick list
counts as a set.

## Main definitions

* `Selection.Rearranged`: selection sets below the root that select the same, written in another
  way.
* `Selection.isReadable`: a selection that has a projection.
* `Projection.Alike`: projections that a generated class does not tell apart.

## Main results

* `Projection.Ordered.eq_of_includesPath`: sorted projections that include the same paths are
  equal.
* `Projection.merge_assoc`: unions are associative.
* `Projection.ofSelections_rearranged`, `Projection.ofSelections_append`: what does not change the
  projection of a selection set.
* `Projection.ofPick_congr`, `Projection.ofPick_full`: what does not change the projection of a
  pick list.
-/

namespace ClientSdk

namespace Projection

/-! ### Paths determine projections -/

/-- A map with finitely many entries leaves out some field. -/
theorem exists_lookup_eq_none (entries : List (String × Projection)) :
    ∃ name, entries.lookup name = none := by
  obtain ⟨name, hname⟩ := Infinite.exists_notMem_finset (entries.map Prod.fst).toFinset
  rw [List.mem_toFinset] at hname
  refine ⟨name, ?_⟩
  rw [← Option.not_isSome_iff_eq_none, isSome_lookup_iff]
  exact hname

/-- **Sorted projections that include the same paths are equal.** Induction on the first one. -/
theorem Ordered.eq_of_includesPath {p q : Projection} (hp : Ordered p) (hq : Ordered q)
    (h : ∀ path, p.includesPath path = q.includesPath path) : p = q := by
  have hall : ∀ entries, ¬ ∀ path, (Projection.fields entries).includesPath path = true := by
    intro entries hpaths
    obtain ⟨name, hname⟩ := exists_lookup_eq_none entries
    have hpath := hpaths [name]
    rw [includesPath_fields_cons, hname] at hpath
    cases hpath
  induction hp generalizing q with
  | all =>
      cases hq with
      | all => rfl
      | fields => exact absurd (fun path => (h path).symm.trans (includesPath_all path)) (hall _)
  | @fields a hsorted hordered ih =>
      cases hq with
      | all => exact absurd (fun path => (h path).trans (includesPath_all path)) (hall _)
      | @fields b hsorted' hordered' =>
          have hlookup : ∀ name path, (a.lookup name).any (·.includesPath path) =
              (b.lookup name).any (·.includesPath path) := by
            intro name path
            have hpath := h (name :: path)
            rwa [includesPath_fields_cons, includesPath_fields_cons] at hpath
          refine congrArg Projection.fields (hsorted.ext hsorted' fun name => ?_)
          cases ha : a.lookup name with
          | none =>
              cases hb : b.lookup name with
              | none => rfl
              | some q => simpa [ha, hb] using hlookup name []
          | some p =>
              cases hb : b.lookup name with
              | none => simpa [ha, hb] using hlookup name []
              | some q =>
                  have hpaths : ∀ path, p.includesPath path = q.includesPath path := by
                    intro path
                    have hpath := hlookup name path
                    rwa [ha, hb] at hpath
                  exact congrArg some (ih _ (mem_of_lookup_eq_some ha)
                    (hordered' _ (mem_of_lookup_eq_some hb)) hpaths)

/-- Unions of sorted projections can be made in any order of making. -/
theorem merge_assoc {p q r : Projection} (hp : Ordered p) (hq : Ordered q) (hr : Ordered r) :
    (p.merge q).merge r = p.merge (q.merge r) := by
  refine ((hp.merge hq).merge hr).eq_of_includesPath (hp.merge (hq.merge hr)) fun path => ?_
  rw [includesPath_merge (hp.merge hq) hr, includesPath_merge hp hq,
    includesPath_merge hp (hq.merge hr), includesPath_merge hq hr, Bool.or_assoc]

end Projection

namespace Selection

/-! ### Readable selections -/

mutual

/-- The selection is a field without an alias, and so is everything below it. -/
def isReadable : Selection → Bool
  | field _ alias? selections => alias?.isNone && areReadable selections
  | spread _ => false
  | inlineFragment _ => false

/-- The selections are fields without an alias, and so is everything below them. -/
def areReadable : List Selection → Bool
  | [] => true
  | selection :: rest => selection.isReadable && areReadable rest

end

theorem areReadable_eq_all (selections : List Selection) :
    areReadable selections = selections.all isReadable := by
  induction selections with
  | nil => rw [areReadable, List.all_nil]
  | cons selection rest ih => rw [areReadable, List.all_cons, ih]

theorem areReadable_append (first second : List Selection) :
    areReadable (first ++ second) = (areReadable first && areReadable second) := by
  simp only [areReadable_eq_all, List.all_append]

/-- Where something is selected in both, joined selection sets select what either selects. -/
theorem selectsPath_append {first second : List Selection} (hfirst : first ≠ [])
    (hsecond : second ≠ []) (path : List String) :
    selectsPath (first ++ second) path = (selectsPath first path || selectsPath second path) := by
  cases path with
  | nil => simp
  | cons name path =>
      have hempty : ∀ {selections : List Selection}, selections ≠ [] →
          selections.isEmpty = false := fun hne => List.isEmpty_eq_false_iff.mpr hne
      rw [selectsPath_cons, selectsPath_cons, selectsPath_cons, hempty hfirst, hempty hsecond,
        hempty (List.append_ne_nil_of_left_ne_nil hfirst second), List.any_append]
      rfl

/-- Selection sets that differ below one field select the same paths if this is so below it. -/
theorem selectsPath_inside (before after : List Selection) (name : String)
    (alias? : Option String) {below below' : List Selection}
    (h : ∀ path, selectsPath below path = selectsPath below' path) (path : List String) :
    selectsPath (before ++ field name alias? below :: after) path =
      selectsPath (before ++ field name alias? below' :: after) path := by
  have hempty : (before ++ field name alias? below :: after).isEmpty =
      (before ++ field name alias? below' :: after).isEmpty := by
    cases before <;> rfl
  cases path with
  | nil => simp
  | cons first path =>
      rw [selectsPath_cons, selectsPath_cons, hempty]
      congr 1
      simp only [List.any_append, List.any_cons, below?_field]
      by_cases hname : name = first
      · simp [hname, h]
      · simp [hname]

/-! ### Rearrangement -/

/-- Selection sets below the root that are the same but for the order of their entries and for
fields that are split into two, at any depth. -/
inductive Rearranged : List Selection → List Selection → Prop
  /-- The entries come in another order. -/
  | reorder {selections selections' : List Selection} : selections.Perm selections' →
      Rearranged selections selections'
  /-- What is selected below a field is divided between two entries for this field. -/
  | divide (before after : List Selection) (name : String) (alias? : Option String)
      {first second : List Selection} : first ≠ [] → second ≠ [] →
      Rearranged (before ++ field name alias? (first ++ second) :: after)
        (before ++ field name alias? first :: field name alias? second :: after)
  /-- What is selected below a field is rearranged. -/
  | inside (before after : List Selection) (name : String) (alias? : Option String)
      {selections selections' : List Selection} : Rearranged selections selections' →
      Rearranged (before ++ field name alias? selections :: after)
        (before ++ field name alias? selections' :: after)

namespace Rearranged

variable {selections selections' : List Selection}

/-- Rearranged selections can be read when the selections can. -/
theorem areReadable_eq (h : Rearranged selections selections') :
    areReadable selections = areReadable selections' := by
  induction h with
  | reorder hperm =>
      rw [areReadable_eq_all, areReadable_eq_all]
      exact hperm.all_eq
  | divide before after name alias? _ _ =>
      cases halias : alias?.isNone with
      | true => simp [areReadable_append, areReadable, isReadable, halias, Bool.and_assoc]
      | false => simp [areReadable_append, areReadable, isReadable, halias]
  | inside before after name alias? _ ih =>
      simp only [areReadable_append, areReadable, isReadable, ih]

/-- Nothing is selected after a rearrangement only if nothing was selected before. -/
theorem isEmpty_eq (h : Rearranged selections selections') :
    selections.isEmpty = selections'.isEmpty := by
  cases h with
  | reorder hperm => exact hperm.isEmpty_eq
  | divide before after name alias? _ _ => cases before <;> rfl
  | inside before after name alias? _ => cases before <;> rfl

/-- **Rearranged selections select the same paths.** Induction on the rearrangement. -/
theorem selectsPath_eq (h : Rearranged selections selections') (path : List String) :
    selectsPath selections path = selectsPath selections' path := by
  induction h generalizing path with
  | reorder hperm =>
      cases path with
      | nil => simp
      | cons name path => rw [selectsPath_cons, selectsPath_cons, hperm.isEmpty_eq, hperm.any_eq]
  | divide before after name alias? hfirst hsecond =>
      cases path with
      | nil => simp
      | cons first path =>
          rw [selectsPath_cons, selectsPath_cons,
            (divide before after name alias? hfirst hsecond).isEmpty_eq]
          congr 1
          simp only [List.any_append, List.any_cons, below?_field]
          by_cases hname : name = first
          · simp [hname, selectsPath_append hfirst hsecond, Bool.or_assoc]
          · simp [hname]
  | inside before after name alias? _ ih => exact selectsPath_inside before after name alias? ih path

end Rearranged

end Selection

namespace Projection

/-! ### Projections of selections -/

/-- Without selections, or with selections that can be read, there is a projection. -/
private theorem exists_ofSelections_of_entries {location : String} {selections : List Selection}
    (h : (∃ result, selectEntries location [] selections = .ok result) ↔
      Selection.areReadable selections = true) :
    (∃ p, ofSelections location selections = .ok p) ↔
      Selection.areReadable selections = true := by
  rw [ofSelections]
  cases selections with
  | nil => exact iff_of_true ⟨all, rfl⟩ (by rw [Selection.areReadable])
  | cons selection rest =>
      rw [← h, List.isEmpty_cons, if_neg Bool.false_ne_true]
      simp only [map_eq_ok_iff]
      constructor
      · rintro ⟨p, result, hresult, -⟩
        exact ⟨result, hresult⟩
      · rintro ⟨result, hresult⟩
        exact ⟨_, result, hresult, rfl⟩

mutual

/-- A selection can be added to entries when it can be read. -/
private theorem exists_selectEntry_iff (location : String)
    (entries : List (String × Projection)) :
    (selection : Selection) → ((∃ result, selectEntry location entries selection = .ok result) ↔
      selection.isReadable = true)
  | .field name alias? below => by
      have hbelow := exists_ofSelections_of_entries
        (exists_selectEntries_iff (location ++ "." ++ name) [] below)
      simp only [selectEntry_field_eq_ok_iff, Selection.isReadable, Bool.and_eq_true,
        Option.isNone_iff_eq_none, ← hbelow]
      constructor
      · rintro ⟨result, halias, p, hp, -⟩
        exact ⟨halias, p, hp⟩
      · rintro ⟨halias, p, hp⟩
        exact ⟨_, halias, p, hp, rfl⟩
  | .spread fragment => by simp [selectEntry, Selection.isReadable]
  | .inlineFragment condition => by simp [selectEntry, Selection.isReadable]

/-- Selections can be added to entries when they can be read. -/
private theorem exists_selectEntries_iff (location : String)
    (entries : List (String × Projection)) :
    (selections : List Selection) →
      ((∃ result, selectEntries location entries selections = .ok result) ↔
        Selection.areReadable selections = true)
  | [] => by simp [selectEntries, Selection.areReadable]
  | selection :: rest => by
      simp only [selectEntries_cons_eq_ok_iff, Selection.areReadable, Bool.and_eq_true]
      constructor
      · rintro ⟨result, middle, hmiddle, hresult⟩
        exact ⟨(exists_selectEntry_iff location entries selection).mp ⟨middle, hmiddle⟩,
          (exists_selectEntries_iff location middle rest).mp ⟨result, hresult⟩⟩
      · rintro ⟨hselection, hrest⟩
        obtain ⟨middle, hmiddle⟩ :=
          (exists_selectEntry_iff location entries selection).mpr hselection
        obtain ⟨result, hresult⟩ := (exists_selectEntries_iff location middle rest).mpr hrest
        exact ⟨result, middle, hmiddle, hresult⟩

end

/-- **A selection set has a projection exactly when it can be read.** -/
theorem exists_ofSelections_iff {location : String} {selections : List Selection} :
    (∃ p, ofSelections location selections = .ok p) ↔
      Selection.areReadable selections = true :=
  exists_ofSelections_of_entries (exists_selectEntries_iff location [] selections)

/-- The projection depends on whether the selections can be read and on the paths that they
select. -/
theorem ofSelections_congr {selections selections' : List Selection}
    (hreadable : Selection.areReadable selections = Selection.areReadable selections')
    (hpaths : ∀ path, Selection.selectsPath selections path =
      Selection.selectsPath selections' path) (location : String) :
    SameOutcome Eq (ofSelections location selections) (ofSelections location selections') := by
  refine .of_iff ?_ fun p p' hp hp' => ?_
  · rw [exists_ofSelections_iff, exists_ofSelections_iff, hreadable]
  · refine (ordered_of_ofSelections hp).eq_of_includesPath (ordered_of_ofSelections hp')
      fun path => ?_
    rw [includesPath_of_ofSelections hp, includesPath_of_ofSelections hp', hpaths]

/-- **Rearranged selections have the same projection.** -/
theorem ofSelections_rearranged {selections selections' : List Selection}
    (h : Selection.Rearranged selections selections') (location : String) :
    SameOutcome Eq (ofSelections location selections) (ofSelections location selections') :=
  ofSelections_congr h.areReadable_eq h.selectsPath_eq location

/-- Joined selection sets have a projection when both have. -/
theorem exists_ofSelections_append_iff {first second : List Selection} {location : String} :
    (∃ p, ofSelections location (first ++ second) = .ok p) ↔
      (∃ q, ofSelections location first = .ok q) ∧
        ∃ r, ofSelections location second = .ok r := by
  rw [exists_ofSelections_iff, exists_ofSelections_iff, exists_ofSelections_iff,
    Selection.areReadable_append, Bool.and_eq_true]

/-- The projection of joined selection sets is the union of their projections. -/
theorem ofSelections_append {first second : List Selection} (hfirst : first ≠ [])
    (hsecond : second ≠ []) {location : String} {p q r : Projection}
    (hp : ofSelections location (first ++ second) = .ok p)
    (hq : ofSelections location first = .ok q) (hr : ofSelections location second = .ok r) :
    p = q.merge r := by
  have hordered := ordered_of_ofSelections hq
  have hordered' := ordered_of_ofSelections hr
  refine (ordered_of_ofSelections hp).eq_of_includesPath (hordered.merge hordered') fun path => ?_
  rw [includesPath_of_ofSelections hp, includesPath_merge hordered hordered',
    includesPath_of_ofSelections hq, includesPath_of_ofSelections hr,
    Selection.selectsPath_append hfirst hsecond]

/-! ### Pick lists -/

/-- A pick list is accepted when it names declared fields only. -/
theorem exists_pickEntries_iff {var : Variable} {type : TypeDef} {names : List String}
    {entries : List (String × Projection)} :
    (∃ result, pickEntries var type entries names = .ok result) ↔
      ∀ name ∈ names, type.hasField name = true := by
  induction names generalizing entries with
  | nil => simp [pickEntries]
  | cons name names ih =>
      rw [pickEntries, List.forall_mem_cons]
      split
      · rename_i hname
        rw [ih, and_iff_right hname]
      · rename_i hname
        simp [hname]

/-- **A pick list counts as a set**: the order of its names and how often they stand there do not
matter. -/
theorem ofPick_congr {var : Variable} {type : TypeDef} {names names' : List String}
    (h : ∀ name, name ∈ names ↔ name ∈ names') :
    SameOutcome Eq (ofPick { var with pick := some names } type)
      (ofPick { var with pick := some names' } type) := by
  have hpick : SameOutcome Eq
      (pickEntries { var with pick := some names } type [] names)
      (pickEntries { var with pick := some names' } type [] names') := by
    refine .of_iff ?_ fun entries entries' hentries hentries' => ?_
    · rw [exists_pickEntries_iff, exists_pickEntries_iff]
      exact forall_congr' fun name => by rw [h name]
    · obtain ⟨hsorted, hlookup⟩ := lookup_of_pickEntries hentries List.Pairwise.nil
      obtain ⟨hsorted', hlookup'⟩ := lookup_of_pickEntries hentries' List.Pairwise.nil
      refine hsorted.ext hsorted' fun name => ?_
      rw [hlookup, hlookup']
      exact if_congr (h name) rfl rfl
  exact hpick.map fun _ _ => congrArg fields

/-- Two projections of one type that a generated class does not tell apart: they take the same
fields, with the same projections below each of them. -/
structure Alike (schema : Schema) (type : TypeDef) (p q : Projection) : Prop where
  /-- They have one normal form. -/
  normalize_eq : p.normalize schema type = q.normalize schema type
  /-- The same fields take part. -/
  fieldsOf_eq : p.fieldsOf type = q.fieldsOf type
  /-- Below each field is the same projection. -/
  child_eq : ∀ field ∈ type.fields, p.child field.name = q.child field.name

/-- A map of all declared fields, each with all of its own, is like no restriction at all. -/
theorem alike_all {schema : Schema} {type : TypeDef} (hdistinct : type.DistinctFields)
    {entries : List (String × Projection)} (hsorted : Sorted entries)
    (hlookup : ∀ name,
      entries.lookup name = if type.hasField name = true then some all else none) :
    Alike schema type (fields entries) all := by
  have hfield : ∀ field ∈ type.fields, entries.lookup field.name = some all := fun field hmem =>
    (hlookup field.name).trans (if_pos (TypeDef.hasField_of_mem hmem))
  have hnames : ∀ name, name ∈ entries.map Prod.fst ↔ name ∈ type.fields.map (·.name) := by
    intro name
    rw [← isSome_lookup_iff, hlookup, ← TypeDef.hasField_iff]
    cases type.hasField name with
    | true => exact iff_of_true rfl rfl
    | false => exact iff_of_false Bool.false_ne_true Bool.false_ne_true
  refine ⟨?_, ?_, fun field hmem => ?_⟩
  · have hperm : (entries.map Prod.fst).Perm (type.fields.map (·.name)) :=
      (List.perm_ext_iff_of_nodup hsorted.nodup_names hdistinct).mpr hnames
    have hlength := hperm.length_eq
    rw [List.length_map, List.length_map] at hlength
    rw [normalize_fields, normalize_all, if_pos]
    rw [coversType_iff, normalizeEntries_eq_map, List.length_map]
    refine ⟨hlength.symm, fun field hmem => ?_⟩
    rw [lookup_map_value, hfield field hmem, Option.map_some, normalizeChild]
    split
    · rw [normalize_all]
    · rfl
  · have hknown : (fields entries).unknownField? type = none := by
      rw [unknownField?, Option.map_eq_none_iff, List.find?_eq_none]
      intro entry hentry
      have hname := TypeDef.hasField_iff.mpr ((hnames _).mp (List.mem_map_of_mem hentry))
      simp [hname]
    rw [fieldsOf, fieldsOf, hknown]
    refine congrArg Except.ok (List.filter_congr fun field hmem => ?_)
    rw [includes, includes, hfield field hmem]
    rfl
  · rw [child, child, hfield field hmem]
    rfl

/-- **A pick list of all declared fields is accepted, and is like no directive at all.** -/
theorem ofPick_full {schema : Schema} {var : Variable} {type : TypeDef}
    (hdistinct : type.DistinctFields) {names : List String}
    (h : ∀ name, name ∈ names ↔ name ∈ type.fields.map (·.name)) :
    SameOutcome (Alike schema type) (ofPick { var with pick := some names } type)
      (ofPick { var with pick := none } type) := by
  obtain ⟨entries, hentries⟩ :=
    (@exists_pickEntries_iff { var with pick := some names } type names []).mpr
      fun name hname => TypeDef.hasField_iff.mpr ((h name).mp hname)
  obtain ⟨hsorted, hlookup⟩ := lookup_of_pickEntries hentries List.Pairwise.nil
  have hpick : ofPick { var with pick := some names } type = .ok (fields entries) :=
    map_eq_ok_iff.mpr ⟨entries, hentries, rfl⟩
  rw [hpick]
  refine .ok (alike_all hdistinct hsorted fun name => ?_)
  rw [hlookup]
  exact if_congr ((h name).trans TypeDef.hasField_iff.symm) rfl rfl

end Projection

end ClientSdk
