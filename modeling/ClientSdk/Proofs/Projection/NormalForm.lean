import ClientSdk.Proofs.Projection.Paths
import ClientSdk.Proofs.WellFormed

/-!
# Normal Forms of Projections

The search for nested classes compares projections after bringing them into normal form.
Normal forms are taken level by level: the normal form for a type has, under each field, the
normal form for the type of that field. They keep the paths that are included, and two
projections that include the same paths have one normal form.

## Main definitions

* `Schema.typeAt?`: the type at the end of a path of declared fields.
* `Projection.NamesFields`: a projection that names declared fields only, at every depth.

## Main results

* `Projection.includes_normalize`, `Projection.child_normalize`: the normal form, level by
  level.
* `Projection.includesPath_normalize`: the normal form includes the same declared paths.
* `Projection.normalize_eq_normalize`: projections that include the same declared paths have
  the same normal form.
-/

namespace ClientSdk

/-- The type at the end of a path of declared fields that starts at `type`. -/
def Schema.typeAt? (schema : Schema) : TypeDef → List String → Option TypeDef
  | type, [] => some type
  | type, name :: path =>
    (Projection.childType? schema type name).bind fun child => schema.typeAt? child path

namespace Projection

variable {schema : Schema} {type : TypeDef}

/-! ### Children -/

/-- The type of a declared field is what its reference names. -/
theorem childType?_eq (hdistinct : type.DistinctFields) {field : FieldDef}
    (hfield : field ∈ type.fields) :
    childType? schema type field.name = schema.get? field.type.leafName := by
  rw [childType?, hdistinct.field?_eq_some hfield, Option.bind_some]

theorem childType?_eq_some (hdistinct : type.DistinctFields) {field : FieldDef} {child : TypeDef}
    (hfield : field ∈ type.fields) (hget : schema.get? field.type.leafName = some child) :
    childType? schema type field.name = some child :=
  (childType?_eq hdistinct hfield).trans hget

/-- A field with a type is a declared field that refers to that type. -/
theorem exists_field_of_childType? {name : String} {child : TypeDef}
    (h : childType? schema type name = some child) :
    ∃ field ∈ type.fields, field.name = name ∧
      schema.get? field.type.leafName = some child := by
  rw [childType?, Option.bind_eq_some_iff] at h
  obtain ⟨field, hfield, hget⟩ := h
  obtain ⟨hmem, hname⟩ := TypeDef.mem_of_field?_eq_some hfield
  exact ⟨field, hmem, hname, hget⟩

/-- The projection that stands under a name, in normal form for the type of that field. -/
def normalizeChild (schema : Schema) (type : TypeDef) (name : String) (p : Projection) :
    Projection :=
  match childType? schema type name with
  | some child => normalize schema child p
  | none => p

/-- The normal form of a map is taken entry by entry. -/
theorem normalizeEntries_eq_map (entries : List (String × Projection)) :
    normalizeEntries schema type entries =
      entries.map fun entry => (entry.1, normalizeChild schema type entry.1 entry.2) := by
  induction entries with
  | nil => rw [normalizeEntries, List.map_nil]
  | cons entry rest ih =>
      rw [normalizeEntries, List.map_cons, ih]
      rfl

theorem lookup_normalizeEntries (entries : List (String × Projection)) (name : String) :
    (normalizeEntries schema type entries).lookup name =
      (entries.lookup name).map (normalizeChild schema type name) := by
  rw [normalizeEntries_eq_map, lookup_map_value]

theorem map_fst_normalizeEntries (entries : List (String × Projection)) :
    (normalizeEntries schema type entries).map Prod.fst = entries.map Prod.fst := by
  rw [normalizeEntries_eq_map, List.map_map]
  rfl

theorem sorted_normalizeEntries {entries : List (String × Projection)} (h : Sorted entries) :
    Sorted (normalizeEntries schema type entries) := by
  rw [Sorted, ← List.pairwise_map (f := Prod.fst) (R := (· < ·)), map_fst_normalizeEntries,
    List.pairwise_map]
  exact h

/-- A map covers a type when it has as many entries as the type has fields, and each field
with all of its own. -/
theorem coversType_iff {entries : List (String × Projection)} :
    coversType type entries = true ↔ type.fields.length = entries.length ∧
      ∀ field ∈ type.fields, entries.lookup field.name = some all := by
  simp [coversType]

/-! ### Levels of a normal form -/

@[simp] theorem normalize_all : normalize schema type all = all := by
  rw [normalize]

theorem normalize_fields (entries : List (String × Projection)) :
    normalize schema type (fields entries) =
      if coversType type (normalizeEntries schema type entries) then all
      else fields (normalizeEntries schema type entries) := by
  rw [normalize]

/-- A normal form includes the same fields of its type. -/
theorem includes_normalize (p : Projection) {name : String} (hfield : type.hasField name = true) :
    (normalize schema type p).includes name = p.includes name := by
  cases p with
  | all => rw [normalize_all]
  | fields entries =>
      have hlookup : ((normalizeEntries schema type entries).lookup name).isSome =
          (entries.lookup name).isSome := by
        rw [lookup_normalizeEntries, Option.isSome_map]
      rw [normalize_fields]
      split
      · rename_i hcovers
        rw [TypeDef.hasField_iff, List.mem_map] at hfield
        obtain ⟨field, hmem, rfl⟩ := hfield
        rw [(coversType_iff.mp hcovers).2 field hmem] at hlookup
        rw [includes, includes, ← hlookup]
        rfl
      · rw [includes, includes, hlookup]

/-- **The children of a normal form are normal forms**: under each field stands the normal form
for the type of that field. -/
theorem child_normalize (p : Projection) {name : String} {child : TypeDef}
    (hchild : childType? schema type name = some child) :
    (normalize schema type p).child name = normalize schema child (p.child name) := by
  cases p with
  | all => rw [normalize_all, Projection.child, normalize_all]
  | fields entries =>
      have hlookup : ((normalizeEntries schema type entries).lookup name).getD all =
          normalize schema child ((entries.lookup name).getD all) := by
        rw [lookup_normalizeEntries]
        cases entries.lookup name with
        | none => simp
        | some q => simp [normalizeChild, hchild]
      rw [normalize_fields]
      split
      · rename_i hcovers
        obtain ⟨field, hmem, rfl, -⟩ := exists_field_of_childType? hchild
        rw [(coversType_iff.mp hcovers).2 field hmem] at hlookup
        exact hlookup
      · exact hlookup

/-- A normal form is sorted. -/
theorem Ordered.normalize {p : Projection} (h : Ordered p) :
    ∀ type, Ordered (normalize schema type p) := by
  induction h with
  | all =>
      intro type
      rw [normalize_all]
      exact .all
  | @fields entries hsorted hchildren ih =>
      intro type
      rw [normalize_fields]
      split
      · exact .all
      · refine .fields (sorted_normalizeEntries hsorted) ?_
        rw [normalizeEntries_eq_map]
        intro entry hentry
        obtain ⟨old, hold, rfl⟩ := List.mem_map.mp hentry
        rw [normalizeChild]
        split
        · exact ih old hold _
        · exact hchildren old hold

/-- **A normal form includes the same declared paths.** -/
theorem includesPath_normalize {path : List String} :
    ∀ {type : TypeDef} (p : Projection), (schema.typeAt? type path).isSome = true →
      (normalize schema type p).includesPath path = p.includesPath path := by
  induction path with
  | nil =>
      intro type p _
      rw [includesPath_nil, includesPath_nil]
  | cons name path ih =>
      intro type p hpath
      rw [Schema.typeAt?, Option.isSome_bind, Option.any_eq_true] at hpath
      obtain ⟨child, hchild, hpath⟩ := hpath
      have hfield : type.hasField name = true := by
        obtain ⟨field, hmem, rfl, -⟩ := exists_field_of_childType? hchild
        exact TypeDef.hasField_of_mem hmem
      rw [includesPath_cons, includesPath_cons, includes_normalize p hfield,
        child_normalize p hchild, ih _ hpath]

/-! ### Equal normal forms -/

/-- The projection names declared fields only: of the type, and below each field of the type
of that field. -/
inductive NamesFields (schema : Schema) : TypeDef → Projection → Prop
  | all {type : TypeDef} : NamesFields schema type all
  | fields {type : TypeDef} {entries : List (String × Projection)} :
      (∀ entry ∈ entries, type.hasField entry.1 = true) →
      (∀ entry ∈ entries, ∀ child, childType? schema type entry.1 = some child →
        NamesFields schema child entry.2) →
      NamesFields schema type (fields entries)

/-- The child of a projection on declared fields names declared fields. -/
theorem NamesFields.child {p : Projection} (h : NamesFields schema type p) {name : String}
    {child : TypeDef} (hchild : childType? schema type name = some child) :
    NamesFields schema child (p.child name) := by
  cases h with
  | all => exact .all
  | @fields _ entries _ hchildren =>
      rw [Projection.child]
      cases hlookup : entries.lookup name with
      | none => exact .all
      | some q => exact hchildren _ (mem_of_lookup_eq_some hlookup) child hchild

/-- The declared paths of a type go on with the declared paths of its fields. -/
theorem isSome_typeAt?_cons {name : String} {child : TypeDef} {path : List String}
    (hchild : childType? schema type name = some child)
    (hpath : (schema.typeAt? child path).isSome = true) :
    (schema.typeAt? type (name :: path)).isSome = true := by
  rwa [Schema.typeAt?, hchild, Option.bind_some]

/-- A map that includes every declared path has an entry under each declared field, whose
projection includes every declared path. -/
private theorem exists_lookup_of_includesPath {entries : List (String × Projection)}
    (hpaths : ∀ path, (schema.typeAt? type path).isSome = true →
      (fields entries).includesPath path = true)
    {name : String} {child : TypeDef} (hchild : childType? schema type name = some child) :
    ∃ q, entries.lookup name = some q ∧
      ∀ path, (schema.typeAt? child path).isSome = true → q.includesPath path = true := by
  have hbelow : ∀ path, (schema.typeAt? child path).isSome = true →
      ((entries.lookup name).any fun q => q.includesPath path) = true := by
    intro path hpath
    rw [← includesPath_fields_cons]
    exact hpaths (name :: path) (isSome_typeAt?_cons hchild hpath)
  cases hlookup : entries.lookup name with
  | none =>
      rw [hlookup] at hbelow
      exact absurd (hbelow [] rfl) Bool.false_ne_true
  | some q =>
      rw [hlookup] at hbelow
      exact ⟨q, rfl, hbelow⟩

/-- A projection whose normal form is not `all` is a map, and its normal form is that map with
its entries in normal form. -/
private theorem exists_entries_of_normalize_ne_all {p : Projection}
    (h : normalize schema type p ≠ all) :
    ∃ entries, p = fields entries ∧
      normalize schema type p = fields (normalizeEntries schema type entries) := by
  cases p with
  | all => exact absurd normalize_all h
  | fields entries =>
      refine ⟨entries, rfl, ?_⟩
      rw [normalize_fields] at h ⊢
      split at h
      · exact absurd rfl h
      · rename_i hcovers
        rw [if_neg hcovers]

/-- A map on declared fields has no entry under other names. -/
private theorem lookup_eq_none_of_namesFields {entries : List (String × Projection)}
    (h : NamesFields schema type (fields entries)) {name : String}
    (hfield : ¬type.hasField name = true) : entries.lookup name = none := by
  cases h with
  | fields hhas _ =>
      cases hlookup : entries.lookup name with
      | none => rfl
      | some q => exact absurd (hhas _ (mem_of_lookup_eq_some hlookup)) hfield

section ReferenceClosed

variable (hclosed : schema.ReferenceClosed) (hdistinct : schema.DistinctFields)

include hclosed hdistinct

/-- Where references are closed every declared field has a type. -/
theorem exists_childType? (htype : type ∈ schema.declarations) {name : String}
    (hfield : type.hasField name = true) :
    ∃ child, childType? schema type name = some child ∧ child ∈ schema.declarations := by
  rw [TypeDef.hasField_iff, List.mem_map] at hfield
  obtain ⟨field, hmem, rfl⟩ := hfield
  obtain ⟨child, hchild⟩ := hclosed.exists_get? htype hmem
  exact ⟨child, childType?_eq_some (hdistinct type htype) hmem hchild,
    Schema.mem_declarations_of_get? hchild⟩

/-- A projection that includes every declared path has the normal form `all`. Induction on the
projection. -/
theorem normalize_eq_all {p : Projection} (hp : Ordered p) :
    ∀ {type : TypeDef}, type ∈ schema.declarations → NamesFields schema type p →
      (∀ path, (schema.typeAt? type path).isSome = true → p.includesPath path = true) →
      normalize schema type p = all := by
  induction hp with
  | all =>
      intro type _ _ _
      exact normalize_all
  | @fields entries hsorted _ ih =>
      intro type htype hnames hpaths
      cases hnames with
      | fields hhas hchildren =>
          -- The declared names and the names of the entries are the same, and distinct.
          have hsub : type.fields.map (·.name) ⊆ entries.map Prod.fst := by
            intro name hname
            obtain ⟨child, hchild, -⟩ :=
              exists_childType? hclosed hdistinct htype (TypeDef.hasField_iff.mpr hname)
            obtain ⟨q, hlookup, -⟩ := exists_lookup_of_includesPath hpaths hchild
            exact List.mem_map.mpr ⟨_, mem_of_lookup_eq_some hlookup, rfl⟩
          have hsup : entries.map Prod.fst ⊆ type.fields.map (·.name) := by
            intro name hname
            obtain ⟨entry, hentry, rfl⟩ := List.mem_map.mp hname
            exact TypeDef.hasField_iff.mp (hhas entry hentry)
          have hle := List.Nodup.length_le_of_subset (hdistinct type htype) hsub
          have hge := List.Nodup.length_le_of_subset hsorted.nodup_names hsup
          rw [normalize_fields, if_pos]
          rw [coversType_iff, normalizeEntries_eq_map, List.length_map]
          constructor
          · simp only [List.length_map] at hle hge
            omega
          · intro field hfield
            obtain ⟨child, hchild, hmemChild⟩ := exists_childType? hclosed hdistinct htype
              (TypeDef.hasField_of_mem hfield)
            obtain ⟨q, hlookup, hbelow⟩ := exists_lookup_of_includesPath hpaths hchild
            have hmem := mem_of_lookup_eq_some hlookup
            rw [lookup_map_value, hlookup, Option.map_some, normalizeChild, hchild]
            exact congrArg some (ih _ hmem hmemChild (hchildren _ hmem child hchild) hbelow)

/-- The normal form is `all` exactly when every declared path is included. -/
theorem normalize_eq_all_iff (htype : type ∈ schema.declarations) {p : Projection}
    (hp : Ordered p) (hnames : NamesFields schema type p) :
    normalize schema type p = all ↔
      ∀ path, (schema.typeAt? type path).isSome = true → p.includesPath path = true := by
  constructor
  · intro h path hpath
    rw [← includesPath_normalize p hpath, h, includesPath_all]
  · exact normalize_eq_all hclosed hdistinct hp htype hnames

/-- **Projections that include the same declared paths have the same normal form.** Induction
on the first projection. Unless both are `all` in normal form, both are maps, and their
entries have the same normal forms. -/
theorem normalize_eq_normalize {p : Projection} (hp : Ordered p) :
    ∀ {q : Projection} {type : TypeDef}, Ordered q →
      type ∈ schema.declarations → NamesFields schema type p → NamesFields schema type q →
      (∀ path, (schema.typeAt? type path).isSome = true →
        p.includesPath path = q.includesPath path) →
      normalize schema type p = normalize schema type q := by
  induction hp with
  | all =>
      intro q type hq htype _ hqnames hpaths
      rw [normalize_all, normalize_eq_all hclosed hdistinct hq htype hqnames]
      intro path hpath
      rw [← hpaths path hpath, includesPath_all]
  | @fields a hsorted hordered ih =>
      intro q type hq htype hpnames hqnames hpaths
      have hp : Ordered (fields a) := .fields hsorted hordered
      have hiff : normalize schema type (fields a) = all ↔ normalize schema type q = all := by
        rw [normalize_eq_all_iff hclosed hdistinct htype hp hpnames,
          normalize_eq_all_iff hclosed hdistinct htype hq hqnames]
        exact forall₂_congr fun path hpath => by rw [hpaths path hpath]
      by_cases htotal : normalize schema type (fields a) = all
      · rw [htotal, hiff.mp htotal]
      · obtain ⟨_, ha, hnormal⟩ := exists_entries_of_normalize_ne_all htotal
        obtain rfl := fields.inj ha
        obtain ⟨b, rfl, hnormal'⟩ :=
          exists_entries_of_normalize_ne_all (htotal ∘ hiff.mpr)
        rw [hnormal, hnormal']
        congr 1
        have hsorted' : Sorted b := by
          cases hq with
          | fields hsorted' _ => exact hsorted'
        refine (sorted_normalizeEntries hsorted).ext (sorted_normalizeEntries hsorted') ?_
        intro name
        rw [lookup_normalizeEntries, lookup_normalizeEntries]
        by_cases hfield : type.hasField name = true
        · obtain ⟨child, hchild, hmemChild⟩ :=
            exists_childType? hclosed hdistinct htype hfield
          have hbelow : ∀ path, (schema.typeAt? child path).isSome = true →
              ((a.lookup name).any fun p => p.includesPath path) =
                ((b.lookup name).any fun q => q.includesPath path) := by
            intro path hpath
            rw [← includesPath_fields_cons, ← includesPath_fields_cons]
            exact hpaths _ (isSome_typeAt?_cons hchild hpath)
          cases hp' : a.lookup name with
          | none =>
              cases hq' : b.lookup name with
              | none => rfl
              | some q' => simpa [hp', hq'] using hbelow [] rfl
          | some p' =>
              cases hq' : b.lookup name with
              | none => simpa [hp', hq'] using hbelow [] rfl
              | some q' =>
                  rw [hp', hq'] at hbelow
                  have hpchild := hpnames.child hchild
                  have hqchild := hqnames.child hchild
                  rw [Projection.child, hp', Option.getD_some] at hpchild
                  rw [Projection.child, hq', Option.getD_some] at hqchild
                  rw [Option.map_some, Option.map_some, normalizeChild, normalizeChild, hchild]
                  exact congrArg some (ih _ (mem_of_lookup_eq_some hp') (hq.of_lookup hq')
                    hmemChild hpchild hqchild hbelow)
        · rw [lookup_eq_none_of_namesFields hpnames hfield,
            lookup_eq_none_of_namesFields hqnames hfield]

end ReferenceClosed

end Projection

end ClientSdk
