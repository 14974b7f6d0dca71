import ClientSdk.Proofs.Augmentation.Outcome
import Mathlib.Data.List.Pairwise

/-!
# Relation Fields

Augmentation leaves out a relation whose name its type has got already, whichever type owns it,
and different types can have one plural. Such types cannot both be augmented, though: their
queries collide later. So after a success nothing has been left out but repetitions, and each
owner has one relation field on each type that it refers to.

## Main results

* `Augment.CollisionFree.eq_of_relationName_eq`: no two owners have one relation name.
* `Augment.mem_addedTo_iff_exists_owner`: which relation fields a type gets.
* `relationFields_exact`: every relation is there once, and nothing else is added to a type.
-/

namespace ClientSdk

namespace Augment

variable {schema : Schema}

/-! ### Names of relations -/

/-- In a list of groups without repetition, a member is in the group of one key only. -/
theorem eq_of_mem_of_nodup_flatMap {α β : Type} {group : α → List β} {keys : List α}
    (hnodup : (keys.flatMap group).Nodup) {a b : α} (ha : a ∈ keys) (hb : b ∈ keys) {member : β}
    (hmemberA : member ∈ group a) (hmemberB : member ∈ group b) : a = b := by
  by_contra hne
  have hsymm : Std.Symm (Function.onFun List.Disjoint group) :=
    ⟨fun _ _ hdisjoint _ hb ha => hdisjoint ha hb⟩
  exact (List.nodup_flatMap.mp hnodup).2.forall ha hb hne hmemberA hmemberB

/-- **No two owners have one relation name**, because the plurals of their names are names of
queries. -/
theorem CollisionFree.eq_of_relationName_eq (h : CollisionFree schema) {owner other : TypeDef}
    (howner : owner ∈ schema.userObjects) (hother : other ∈ schema.userObjects)
    {referenced : String}
    (hname : relationName owner.name referenced = relationName other.name referenced) :
    owner = other := by
  have hplural : Text.plural (Text.lower owner.name) = Text.plural (Text.lower other.name) := by
    rw [relationName, relationName, String.append_left_inj, String.append_left_inj] at hname
    exact hname
  have hmem : ∀ type : TypeDef,
      Text.plural (Text.lower type.name) ∈ queryNames type.name := fun type =>
    List.mem_cons_of_mem _ (List.mem_singleton_self _)
  exact eq_of_mem_of_nodup_flatMap h.nodup_queries howner hother (hmem owner)
    (hplural ▸ hmem other)

/-! ### Relations of a type -/

section

variable {added : List (String × FieldDef)} (hkeyed : schema.Keyed)
  (hfree : ∀ name ∈ mutationResults, name ∉ schema.types.keys)
  (hadded : RelationsAdded (addResultScalars schema)
    (relations (addResultScalars schema) schema.userObjects) added)

include hkeyed hfree hadded

/-- **Which relation fields a type gets**: one for each type that refers to it. -/
theorem mem_addedTo_iff_exists_owner (hcollision : CollisionFree schema) {key : String}
    {field : FieldDef} :
    field ∈ TypeMap.addedTo added key ↔ key ∈ schema.userObjects.map (·.name) ∧
      ∃ owner ∈ schema.userObjects, owner.RefersTo key ∧ field = relationField owner.name key := by
  rw [TypeMap.mem_addedTo_iff]
  constructor
  · intro hmem
    obtain ⟨owner, howner, referenced, hreferenced, hrefers, heq⟩ :=
      (mem_relations_iff hkeyed hfree).mp (hadded.sublist.subset hmem)
    obtain ⟨rfl, rfl⟩ := Prod.mk.inj heq
    exact ⟨List.mem_map_of_mem hreferenced, owner, howner, hrefers, rfl⟩
  · rintro ⟨hkey, owner, howner, hrefers, rfl⟩
    obtain ⟨referenced, hreferenced, rfl⟩ := List.mem_map.mp hkey
    have hrelation := (mem_relations_iff hkeyed hfree).mpr
      ⟨owner, howner, referenced, hreferenced, hrefers, rfl⟩
    -- What has been added under the name of this relation is this relation.
    obtain ⟨entry, hentry, hsame⟩ := List.mem_map.mp (hadded.exists_added _ hrelation)
    obtain ⟨htarget, hname⟩ := Prod.mk.inj hsame
    obtain ⟨other, hother, target, -, -, rfl⟩ :=
      (mem_relations_iff hkeyed hfree).mp (hadded.sublist.subset hentry)
    rw [show target.name = referenced.name from htarget] at hentry hname
    obtain rfl := hcollision.eq_of_relationName_eq hother howner hname
    exact hentry

/-- A user-declared object type gets one relation field for each type that refers to it. -/
theorem mem_addedTo_name_iff (hcollision : CollisionFree schema) {type : TypeDef}
    (htype : type ∈ schema.userObjects) {field : FieldDef} :
    field ∈ TypeMap.addedTo added type.name ↔
      ∃ owner ∈ schema.userObjects, owner.RefersTo type.name ∧
        field = relationField owner.name type.name := by
  rw [mem_addedTo_iff_exists_owner hkeyed hfree hadded hcollision]
  exact and_iff_right (List.mem_map_of_mem htype)

omit hkeyed hfree in
/-- No type gets two relation fields of one name. -/
theorem nodup_map_name_addedTo (key : String) :
    ((TypeMap.addedTo added key).map (·.name)).Nodup := by
  have hnodup : ((added.filter fun entry => entry.1 == key).map fun entry =>
      (entry.1, entry.2.name)).Nodup := hadded.nodup.sublist (List.filter_sublist.map _)
  have hkeys : (added.filter fun entry => entry.1 == key).map (fun entry =>
      (entry.1, entry.2.name)) =
      ((TypeMap.addedTo added key).map (·.name)).map fun name => (key, name) := by
    rw [TypeMap.addedTo, List.map_map, List.map_map]
    refine List.map_congr_left fun entry hentry => ?_
    rw [beq_iff_eq.mp (List.mem_filter.mp hentry).2]
    rfl
  rw [hkeys] at hnodup
  exact hnodup.of_map _

end

end Augment

open Augment in
/-- **No relation is lost.** After augmentation, the fields of a user-declared object type are
those that it declares, and after these its relation fields. Each user-declared object type that
refers to it has exactly one field of the name of its relation there, the one that leads to this
very type, and there is no relation field of any other type. -/
theorem relationFields_exact {schema : Schema} {result : Augmentation} (hkeyed : schema.Keyed)
    (hfree : ∀ name ∈ mutationResults, name ∉ schema.types.keys)
    (h : augment schema = .ok result) {referenced : TypeDef}
    (hreferenced : referenced ∈ schema.userObjects) :
    ∃ final relations, result.schema.get? referenced.name = some final ∧
      final.fields = referenced.fields ++ relations ∧
      (∀ owner ∈ schema.userObjects, owner.RefersTo referenced.name →
        ∃ field ∈ relations, field.type = .list (.named owner.name false) false ∧
          final.fields.filter (·.name == relationName owner.name referenced.name) = [field]) ∧
      ∀ field ∈ relations, ∃ owner ∈ schema.userObjects, owner.RefersTo referenced.name ∧
        field = relationField owner.name referenced.name := by
  obtain ⟨-, hcollision⟩ := resolved_and_collisionFree hkeyed hfree h
  obtain ⟨added, types, happended⟩ := exists_appended hkeyed hfree h
  refine ⟨_, TypeMap.addedTo added referenced.name,
    happended.get?_eq (get?_of_mem_userObjects hkeyed hreferenced), rfl, ?_, fun field hfield =>
      (mem_addedTo_name_iff hkeyed hfree happended.relations hcollision hreferenced).mp hfield⟩
  intro owner howner hrefers
  have hmem := (mem_addedTo_name_iff hkeyed hfree happended.relations hcollision hreferenced).mpr
    ⟨owner, howner, hrefers, rfl⟩
  refine ⟨_, hmem, rfl, ?_⟩
  have hdeclared : referenced.fields.filter
      (·.name == relationName owner.name referenced.name) = [] := by
    have hnew := hcollision.hasField_relationName howner hreferenced hrefers
    rw [← Bool.not_eq_true, TypeDef.hasField_iff] at hnew
    refine List.filter_eq_nil_iff.mpr fun field hdeclared hname => hnew ?_
    rw [← beq_iff_eq.mp hname]
    exact List.mem_map_of_mem hdeclared
  have hrelations := filter_eq_singleton
    (nodup_map_name_addedTo happended.relations referenced.name) hmem
  rw [TypeDef.pushFields, List.filter_append, hdeclared, List.nil_append]
  exact hrelations

/-- A type that other types refer to. -/
def townCity : TypeDef where
  name := "City"
  fields := [{ name := "name", type := .named "String" false }]

/-- A schema in which one type refers to itself and twice to the city, and another one refers to
the city and has an input type and a scalar of the user at its fields. -/
def townSchema : Schema where
  types := .ofList (standardScalars.map .givenScalar ++
    [townCity,
     { name := "Person"
       description := some "Who lives here."
       fields := [{ name := "friend", type := .named "Person" true },
         { name := "home", type := .named "City" false },
         { name := "birthplace", type := .named "City" true },
         { name := "visited"
           type := .list (.named "City" false) true
           arguments := [{ name := "near", type := .named "Area" true }] }] },
     { name := "Dog"
       fields := [{ name := "home", type := .named "City" true },
         { name := "sizes", type := .list (.named "Size" true) false },
         { name := "range", type := .named "Area" false }] },
     { name := "Area", kind := .input
       fields := [{ name := "around", type := .named "String" true }] },
     { name := "Size", kind := .scalar }])
  query := { name := "Query", fields := [{ name := "today", type := .named "String" false }] }
  mutation := { name := "Mutation" }

open Augment in
/-- The city gets one relation for people, who refer to it twice, and one for dogs. -/
theorem relationFields_exact_town :
    townSchema.Keyed ∧ (∀ name ∈ mutationResults, name ∉ townSchema.types.keys) ∧
    townCity ∈ townSchema.userObjects ∧
    ∃ result, augment townSchema = .ok result ∧
      ∃ final relations, result.schema.get? "City" = some final ∧
        final.fields = townCity.fields ++ relations ∧
        relations.map (·.name) = ["people_as_city", "dogs_as_city"] ∧
        (∀ owner ∈ townSchema.userObjects, owner.RefersTo "City" →
          ∃ field ∈ relations, field.type = .list (.named owner.name false) false ∧
            final.fields.filter (·.name == relationName owner.name "City") = [field]) ∧
        ∀ field ∈ relations, ∃ owner ∈ townSchema.userObjects, owner.RefersTo "City" ∧
          field = relationField owner.name "City" := by
  have hkeyed : townSchema.Keyed := by decide
  have hfree : ∀ name ∈ mutationResults, name ∉ townSchema.types.keys := by decide
  have hcity : townCity ∈ townSchema.userObjects := by decide
  obtain ⟨result, h, hnames⟩ : ∃ result, augment townSchema = .ok result ∧
      (result.schema.get? "City").map (fun type => type.fields.map (·.name)) =
        some ["name", "people_as_city", "dogs_as_city"] := ⟨_, rfl, rfl⟩
  obtain ⟨final, relations, hfinal, hfields, hexact⟩ := relationFields_exact hkeyed hfree h hcity
  refine ⟨hkeyed, hfree, hcity, result, h, final, relations, hfinal, hfields, ?_, hexact⟩
  rw [show result.schema.get? "City" = some final from hfinal, Option.map_some, hfields,
    List.map_append] at hnames
  exact (List.cons.inj (Option.some.inj hnames)).2

end ClientSdk
