import ClientSdk.Proofs.Projection.Declared

/-!
# Canonical Projections

The normal form of a projection is a finite tree, and what the projection means is a set of
paths of declared fields, which is infinite where types refer back to themselves. Two
projections have one normal form exactly when they mean the same paths, so that the search for
nested classes may compare uses of a type by equality. It may also pass the children of a normal
form on as they are: they are normal forms themselves.

## Main definitions

* `Projection.Includes`: the paths of declared fields that a projection includes.

## Main results

* `Projection.includes_iff`: these paths, by the types and by the entries along the path.
* `Projection.normalize_normalize`: normalizing again changes nothing.
* `Projection.normalize_canonical`: normal forms are equal exactly when the included paths are.
-/

namespace ClientSdk

namespace Projection

variable {schema : Schema} {type : TypeDef}

/-- A path of fields from `type` on is included: each field is declared on the type that is
reached so far and takes part in the projection that is reached so far. -/
inductive Includes (schema : Schema) : TypeDef → Projection → List String → Prop
  | nil {type : TypeDef} {p : Projection} : Includes schema type p []
  | cons {type child : TypeDef} {p : Projection} {field : FieldDef} {path : List String} :
      field ∈ type.fields → p.includes field.name = true →
      schema.get? field.type.leafName = some child →
      Includes schema child (p.child field.name) path →
      Includes schema type p (field.name :: path)

/-- Where field names are distinct, a path is included when it is a path of declared fields and
the entries of the projection go along with it. Induction on the path. -/
theorem includes_iff (hdistinct : schema.DistinctFields) (htype : type ∈ schema.declarations)
    {p : Projection} {path : List String} :
    Includes schema type p path ↔
      (schema.typeAt? type path).isSome = true ∧ p.includesPath path = true := by
  constructor
  · intro h
    induction h with
    | nil => exact ⟨rfl, includesPath_nil _⟩
    | @cons type child p field path hfield hincluded hget _ ih =>
        obtain ⟨hat, hbelow⟩ := ih (Schema.mem_declarations_of_get? hget)
        have hchild := childType?_eq_some (hdistinct type htype) hfield hget
        refine ⟨isSome_typeAt?_cons hchild hat, ?_⟩
        rw [includesPath_cons, hincluded, hbelow, Bool.true_and]
  · rintro ⟨hat, hincluded⟩
    induction path generalizing type p with
    | nil => exact .nil
    | cons name path ih =>
        rw [Schema.typeAt?, Option.isSome_bind, Option.any_eq_true] at hat
        obtain ⟨child, hchild, hat⟩ := hat
        obtain ⟨field, hfield, rfl, hget⟩ := exists_field_of_childType? hchild
        rw [includesPath_cons, Bool.and_eq_true] at hincluded
        exact .cons hfield hincluded.1 hget
          (ih (Schema.mem_declarations_of_get? hget) hat hincluded.2)

/-- Projections include the same paths of declared fields when their entries go along with the
same ones among these paths. -/
theorem forall_includes_iff (hdistinct : schema.DistinctFields)
    (htype : type ∈ schema.declarations) {p q : Projection} :
    (∀ path, Includes schema type p path ↔ Includes schema type q path) ↔
      ∀ path, (schema.typeAt? type path).isSome = true →
        p.includesPath path = q.includesPath path := by
  refine forall_congr' fun path => ?_
  rw [includes_iff hdistinct htype, includes_iff hdistinct htype, and_congr_right_iff]
  exact imp_congr_right fun _ => Bool.eq_iff_iff.symm

/-- **Normalizing again changes nothing.** Induction on the projection: the entries of a normal
form are normal, so they cover the type when they did before. -/
theorem normalize_normalize {p : Projection} (hp : Ordered p) :
    ∀ type, normalize schema type (normalize schema type p) = normalize schema type p := by
  induction hp with
  | all =>
      intro type
      rw [normalize_all, normalize_all]
  | @fields entries _ _ ih =>
      intro type
      have hentries : normalizeEntries schema type (normalizeEntries schema type entries) =
          normalizeEntries schema type entries := by
        simp only [normalizeEntries_eq_map, List.map_map]
        refine List.map_congr_left fun entry hentry => ?_
        simp only [Function.comp, normalizeChild]
        cases childType? schema type entry.1 with
        | none => rfl
        | some child => exact congrArg _ (ih entry hentry child)
      rw [normalize_fields]
      split
      · exact normalize_all
      · rename_i hcovers
        rw [normalize_fields, hentries, if_neg hcovers]

/-- The child of a normal form, under a field with a type, is a normal form for that type. -/
theorem normalize_child_normalize {p : Projection} (hp : Ordered p) {name : String}
    {child : TypeDef} (hchild : childType? schema type name = some child) :
    normalize schema child ((normalize schema type p).child name) =
      (normalize schema type p).child name := by
  rw [child_normalize p hchild, normalize_normalize (hp.child name)]

/-- **Normal forms are canonical.** Let two projections be sorted, as all that are made here are,
and name declared fields only. Their normal forms are equal exactly when they include the same
paths of declared fields. Normalizing keeps these paths and changes nothing the second time, and
under every field that takes part in a normal form stands a normal form for the type of that
field. -/
theorem normalize_canonical (hclosed : schema.ReferenceClosed)
    (hdistinct : schema.DistinctFields) (htype : type ∈ schema.declarations)
    {p q : Projection} (hp : Ordered p) (hq : Ordered q) (hpnames : NamesFields schema type p)
    (hqnames : NamesFields schema type q) :
    (normalize schema type p = normalize schema type q ↔
        ∀ path, Includes schema type p path ↔ Includes schema type q path) ∧
      (∀ path, Includes schema type (normalize schema type p) path ↔
        Includes schema type p path) ∧
      normalize schema type (normalize schema type p) = normalize schema type p ∧
      ∀ field ∈ type.fields, (normalize schema type p).includes field.name = true →
        ∃ child, schema.get? field.type.leafName = some child ∧
          normalize schema child ((normalize schema type p).child field.name) =
            (normalize schema type p).child field.name := by
  have hkeeps : ∀ p path, Includes schema type (normalize schema type p) path ↔
      Includes schema type p path := fun p =>
    (forall_includes_iff hdistinct htype).mpr fun _ hpath => includesPath_normalize p hpath
  refine ⟨⟨fun h path => ?_, fun h => ?_⟩, hkeeps p, normalize_normalize hp type, ?_⟩
  · rw [← hkeeps p, h, hkeeps q]
  · exact normalize_eq_normalize hclosed hdistinct hp hq htype hpnames hqnames
      ((forall_includes_iff hdistinct htype).mp h)
  · intro field hfield _
    obtain ⟨child, hget⟩ := hclosed.exists_get? htype hfield
    exact ⟨child, hget, normalize_child_normalize hp
      (childType?_eq_some (hdistinct type htype) hfield hget)⟩

/-- Persons with their parents and children, who are persons again. -/
def familySchema : Schema where
  types := .ofList (standardScalars.map .givenScalar ++ [
    { name := "Person", fields := [
        { name := "name", type := .named "String" false },
        { name := "children", type := .list (.named "Person" false) false },
        { name := "parents", type := .list (.named "Person" false) true }] }])
  query := { name := "Query", fields := [
    { name := "person", type := .named "Person" true }] }
  mutation := { name := "Mutation" }

/-- Selects every field of a person, and every field of the children once more. -/
def selectFamily : List Selection :=
  [.field "name" none [], .field "parents" none [], .field "children" none [
    .field "children" none [], .field "parents" none [], .field "name" none []]]

/-- Selects every field of a person, but only the name of the parents. -/
def selectAncestry : List Selection :=
  [.field "name" none [], .field "children" none [],
    .field "parents" none [.field "name" none []]]

/-- What selects all fields of the children once more includes the same paths, of any length, as
the projection on all fields; what selects only the name of the parents does not. -/
theorem normalize_canonical_family :
    ∃ person p q, familySchema.get? "Person" = some person ∧
      ofSelections "Query.person" selectFamily = .ok p ∧
      ofSelections "Query.person" selectAncestry = .ok q ∧
      (∀ path, Includes familySchema person p path ↔ Includes familySchema person all path) ∧
      ¬∀ path, Includes familySchema person p path ↔ Includes familySchema person q path := by
  have hclosed : familySchema.ReferenceClosed := by decide
  have hdistinct : familySchema.DistinctFields := by decide
  obtain ⟨person, hperson⟩ : ∃ person, familySchema.get? "Person" = some person := ⟨_, rfl⟩
  have htype := Schema.mem_declarations_of_get? hperson
  obtain ⟨p, hp⟩ : ∃ p, ofSelections "Query.person" selectFamily = .ok p := ⟨_, rfl⟩
  obtain ⟨q, hq⟩ : ∃ q, ofSelections "Query.person" selectAncestry = .ok q := ⟨_, rfl⟩
  have hpnames : NamesFields familySchema person p := namesFields_of_ofSelections hp <| by
    cases hperson
    decide
  have hqnames : NamesFields familySchema person q := namesFields_of_ofSelections hq <| by
    cases hperson
    decide
  refine ⟨person, p, q, hperson, hp, hq, ?_, ?_⟩
  · refine (normalize_canonical hclosed hdistinct htype (ordered_of_ofSelections hp) .all
      hpnames .all).1.mp ?_
    cases hperson
    cases hp
    rfl
  · rw [← (normalize_canonical hclosed hdistinct htype (ordered_of_ofSelections hp)
      (ordered_of_ofSelections hq) hpnames hqnames).1]
    cases hperson
    cases hp
    cases hq
    decide

end Projection

end ClientSdk
