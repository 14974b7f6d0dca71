import ClientSdk.Proofs.Augmentation.AnySchema
import ClientSdk.Proofs.Text.Plural
import Mathlib.Data.List.Duplicate

/-!
# Names That Collide

A synthesized name collides with one that is declared, or with one that is synthesized for another
object type, or with one that is synthesized for the same type: both queries of a type have one
name where its name in lowercase is its own plural. This module finds the cause of every collision,
in any schema, and shows that nothing else that is synthesized for one type collides.

## Main definitions

* `Augment.Declares`: a name is declared where it is to be synthesized.
* `Augment.Shares`: a name is synthesized for two object types.
* `Augment.IsInvariable`: the name of a type is its own plural, in lowercase.
* `Augment.Repeats`: a name is synthesized twice for one object type.

## Main results

* `Augment.nodup_mutationNames`, `Augment.nodup_queryNames_iff`: the names for one type.
* `Augment.cause_of_augment_eq_error_of_any`: why augmentation fails, in any schema.
* `augment_collision_cause`: why names collide, and when one type is enough for a collision.
-/

namespace ClientSdk

/-! ### Duplicates -/

/-- What occurs twice in joined lists occurs in two of them, or twice in one of them. -/
theorem duplicate_flatMap {α β : Type} {f : α → List β} {as : List α} {b : β}
    (h : List.Duplicate b (as.flatMap f)) :
    (∃ first second, [first, second].Sublist as ∧ b ∈ f first ∧ b ∈ f second) ∨
      ∃ a ∈ as, List.Duplicate b (f a) := by
  induction as with
  | nil => exact absurd h (List.not_duplicate_nil b)
  | cons a as ih =>
      rw [List.flatMap_cons, List.duplicate_iff_sublist, List.sublist_append_iff] at h
      obtain ⟨front, back, hsplit, hfront, hback⟩ := h
      match front, hsplit with
      | [], hsplit =>
          obtain rfl : [b, b] = back := hsplit
          rcases ih (List.duplicate_iff_sublist.mpr hback) with
            ⟨first, second, hsub, hmem⟩ | ⟨other, hother, hdup⟩
          · exact .inl ⟨first, second, hsub.cons a, hmem⟩
          · exact .inr ⟨other, List.mem_cons_of_mem a hother, hdup⟩
      | [_], hsplit =>
          obtain ⟨rfl, rfl⟩ := List.cons.inj hsplit
          obtain ⟨second, hsecond, hmem⟩ := List.mem_flatMap.mp (List.singleton_sublist.mp hback)
          exact .inl ⟨a, second, (List.singleton_sublist.mpr hsecond).cons_cons a,
            List.singleton_sublist.mp hfront, hmem⟩
      | _ :: _ :: rest, hsplit =>
          obtain ⟨rfl, htail⟩ := List.cons.inj hsplit
          obtain ⟨rfl, -⟩ := List.cons.inj htail
          exact .inr ⟨a, List.mem_cons_self, List.duplicate_iff_sublist.mpr
            (((List.nil_sublist rest).cons_cons _ |>.cons_cons _).trans hfront)⟩

namespace Augment

/-! ### The names for one type -/

/-- The name is its own plural, in lowercase: an uncountable noun, or empty. -/
def IsInvariable (name : String) : Prop := name = "" ∨ Text.lower name ∈ Text.uncountableNouns

instance (name : String) : Decidable (IsInvariable name) :=
  inferInstanceAs (Decidable (_ ∨ _))

/-- The plural of a name in lowercase is that name where it is invariable. -/
theorem plural_lower_eq_self_iff {name : String} :
    Text.plural (Text.lower name) = Text.lower name ↔ IsInvariable name := by
  rw [Text.plural_eq_self_iff, Text.lower_eq_empty_iff]
  rfl

/-- The mutations of a type have distinct names. -/
theorem nodup_mutationNames (name : String) : (mutationNames name).Nodup := by
  have hendings : ["_insert", "_delete", "_update"].Nodup := by decide
  exact hendings.map fun _ _ => (String.append_right_inj (Text.lower name)).mp

/-- The queries of a type have distinct names unless its name is invariable. -/
theorem nodup_queryNames_iff {name : String} :
    (queryNames name).Nodup ↔ ¬IsInvariable name := by
  rw [queryNames, List.nodup_cons, List.mem_singleton, ← plural_lower_eq_self_iff, eq_comm]
  exact and_iff_left (List.nodup_singleton _)

/-- The names of the fields of a root that are synthesized for the type `name`. -/
def rootNames : OperationKind → String → List String
  | .query => queryNames
  | .mutation => mutationNames

/-- What occurs twice among the names for one type is the name of its query, which is
invariable. -/
theorem eq_of_duplicate_rootNames {kind : OperationKind} {source name : String}
    (h : List.Duplicate name (rootNames kind source)) :
    kind = .query ∧ IsInvariable source ∧ name = Text.lower source := by
  cases kind with
  | mutation => exact absurd (nodup_mutationNames source) h.not_nodup
  | query =>
      have hinvariable : IsInvariable source :=
        not_not.mp fun hnot => h.not_nodup (nodup_queryNames_iff.mpr hnot)
      refine ⟨rfl, hinvariable, ?_⟩
      have hmem : name ∈ queryNames source := h.mem
      rw [queryNames, plural_lower_eq_self_iff.mpr hinvariable] at hmem
      simpa using hmem

/-! ### Causes -/

variable (schema : Schema)

/-- The name is declared where it is to be synthesized: by the type that is to get a relation
field, among the types, or by the root. -/
def Declares : Clash → String → Prop
  | .relationField type, name =>
    ∃ target, schema.get? type = some target ∧ target.hasField name = true
  | .inputType, name => name ∈ schema.types.keys
  | .rootField root, name =>
    ∃ kind, (schema.root kind).name = root ∧ (schema.root kind).hasField name = true
  | _, _ => False

/-- The name is among those for two user-declared object types. -/
def SharesAmong (names : String → List String) (name : String) : Prop :=
  ∃ first second, [first, second].Sublist schema.userObjects ∧
    name ∈ names (sourceName schema first) ∧ name ∈ names (sourceName schema second)

/-- The name is synthesized for two user-declared object types, in one place. -/
def Shares : Clash → String → Prop
  | .inputType, name => SharesAmong schema (fun source => [inputTypeName source]) name
  | .rootField root, name =>
    ∃ kind, (schema.root kind).name = root ∧ SharesAmong schema (rootNames kind) name
  | _, _ => False

/-- The name is that of both queries of one user-declared object type. -/
def Repeats : Clash → String → Prop
  | .rootField root, name =>
    schema.query.name = root ∧ ∃ type ∈ schema.userObjects,
      IsInvariable (sourceName schema type) ∧ name = Text.lower (sourceName schema type)
  | _, _ => False

variable {schema}

/-- The name of a field that cannot be added to a root is declared by it, synthesized for two types
or for one type twice. -/
theorem cause_of_addRootFields_eq_error {added : List (String × FieldDef)} {extended : Schema}
    {types : List TypeDef} (hpassed : Passed schema added extended types) (kind : OperationKind)
    {declared : TypeDef → List FieldDef}
    (hnames : ∀ type, (declared type).map (·.name) = rootNames kind type.name)
    {error : GenerationError}
    (h : addRootFields (schema.root kind) (types.flatMap declared) = .error error) :
    ∃ name, error = .namingCollision (.rootField (schema.root kind).name) name ∧
      ((schema.root kind).hasField name = true ∨ SharesAmong schema (rootNames kind) name ∨
        kind = .query ∧ ∃ type ∈ schema.userObjects,
          IsInvariable (sourceName schema type) ∧ name = Text.lower (sourceName schema type)) := by
  obtain ⟨done, field, rest, hfields, rfl, htaken⟩ := exists_field_of_addRootFields_eq_error h
  refine ⟨_, rfl, htaken.imp_right fun hbefore => ?_⟩
  -- The name stands among those for all types once before this field and once for it.
  have hduplicate : List.Duplicate field.name
      (schema.userObjects.flatMap fun type => rootNames kind (sourceName schema type)) := by
    rw [← hpassed.map_name_flatMap hnames, hfields, List.map_append, List.map_cons,
      List.duplicate_iff_sublist]
    exact (List.singleton_sublist.mpr hbefore).append ((List.nil_sublist _).cons_cons _)
  rcases duplicate_flatMap hduplicate with ⟨first, second, hsub, hfirst, hsecond⟩ |
    ⟨type, htype, hduplicate⟩
  · exact .inl ⟨first, second, hsub, hfirst, hsecond⟩
  · obtain ⟨hquery, hinvariable, hname⟩ := eq_of_duplicate_rootNames hduplicate
    exact .inr ⟨hquery, type, htype, hinvariable, hname⟩

/-- The name of an input type that cannot be added is that of a type, or of the input type of
another object type. -/
theorem cause_of_addInputs_eq_error {added : List (String × FieldDef)} {error : GenerationError}
    (h : addInputs (related schema added) (schema.userObjects.map (·.name)) = .error error) :
    ∃ type ∈ schema.userObjects,
      type.name ∉ schema.types.keys ∧ error = .missingType type.name .inputType ∨
      error = .namingCollision .inputType (inputTypeName (sourceName schema type)) ∧
        (inputTypeName (sourceName schema type) ∈ schema.types.keys ∨
          SharesAmong schema (fun source => [inputTypeName source])
            (inputTypeName (sourceName schema type))) := by
  obtain ⟨done, name, rest, hnames, hcause⟩ := InputsRead.exists_of_foldlM_eq_error h
  obtain ⟨before, others, hobjects, rfl, hothers⟩ := List.map_eq_append_iff.mp hnames
  obtain ⟨type, after, rfl, rfl, rfl⟩ := List.map_eq_cons_iff.mp hothers
  refine ⟨type, hobjects ▸ List.mem_append_right _ List.mem_cons_self, ?_⟩
  rw [keys_related, mem_keys_addResultScalars_iff, mem_keys_addResultScalars_iff,
    nameUnder_related] at hcause
  rcases hcause with ⟨hmissing, rfl⟩ | ⟨rfl, (hdeclared | hmarker) | ⟨earlier, hearlier, hsame⟩⟩
  · exact .inl ⟨fun hmem => hmissing (.inl hmem), rfl⟩
  · exact .inr ⟨rfl, .inl hdeclared⟩
  · exact absurd hmarker (inputTypeName_notMem (by decide) _)
  · obtain ⟨first, hfirst, rfl⟩ := List.mem_map.mp hearlier
    rw [nameUnder_related] at hsame
    refine .inr ⟨rfl, .inr ⟨first, type, ?_, ?_, List.mem_singleton_self _⟩⟩
    · rw [hobjects]
      exact (List.singleton_sublist.mpr hfirst).append ((List.nil_sublist _).cons_cons _)
    · exact List.mem_singleton.mpr (congrArg inputTypeName hsame.symm)

/-- The name of a relation field that cannot be added is declared by the type that is to get
it. -/
theorem cause_of_addRelations_eq_error {error : GenerationError}
    (h : addRelations (addResultScalars schema)
      (relations (addResultScalars schema) schema.userObjects) = .error error) :
    (∃ type ∈ schema.userObjects, type.name ∉ schema.types.keys ∧
      error = .missingType type.name .relation) ∨
    ∃ clash name, error = .namingCollision clash name ∧ Declares schema clash name := by
  obtain ⟨relation, hrelation, hcause⟩ := exists_relation_of_addRelations_eq_error h
  obtain ⟨owner, -, referenced, hreferenced, rfl⟩ := exists_of_mem_relations hrelation
  rcases hcause with ⟨hmissing, rfl⟩ | ⟨type, hget, hfield, rfl⟩
  · rw [mem_keys_addResultScalars_iff] at hmissing
    exact .inl ⟨referenced, hreferenced, fun hmem => hmissing (.inl hmem), rfl⟩
  · refine .inr ⟨_, _, rfl, type, ?_, hfield⟩
    rw [get?_addResultScalars_eq] at hget
    split at hget
    · -- A marker declares no fields.
      obtain rfl := Option.some.inj hget
      cases hfield
    · exact hget

/-- **Why augmentation fails, in any schema**: a user-declared object type refers to a type that
does not exist, or stands under another name and nothing under its own, or a name collides with
one that is declared, synthesized for another type, or synthesized for the same type. -/
theorem cause_of_augment_eq_error_of_any {error : GenerationError}
    (h : augment schema = .error error) :
    (∃ entry ∈ schema.userObjects.flatMap typeReferences,
      entry.1 ∉ schema.types.keys ∧ error = .missingType entry.1 entry.2) ∨
    (∃ type ∈ schema.userObjects, type.name ∉ schema.types.keys ∧
      ∃ reference, error = .missingType type.name reference) ∨
    ∃ clash name, error = .namingCollision clash name ∧
      (Declares schema clash name ∨ Shares schema clash name ∨ Repeats schema clash name) := by
  cases passFails_of_augment_eq_error h with
  | references h => exact .inl (exists_of_requireReferences_eq_error h)
  | relations _ h =>
      rcases cause_of_addRelations_eq_error h with ⟨type, htype, hmissing, rfl⟩ |
        ⟨clash, name, rfl, hdeclared⟩
      · exact .inr (.inl ⟨type, htype, hmissing, _, rfl⟩)
      · exact .inr (.inr ⟨clash, name, rfl, .inl hdeclared⟩)
  | inputs _ h =>
      obtain ⟨type, htype, ⟨hmissing, rfl⟩ | ⟨rfl, hcause⟩⟩ := cause_of_addInputs_eq_error h
      · exact .inr (.inl ⟨type, htype, hmissing, _, rfl⟩)
      · exact .inr (.inr ⟨_, _, rfl, hcause.imp_right .inl⟩)
  | mutations hpassed h =>
      obtain ⟨name, rfl, hcause⟩ :=
        cause_of_addRootFields_eq_error hpassed .mutation map_name_mutationFields h
      refine .inr (.inr ⟨_, _, rfl, ?_⟩)
      refine hcause.imp (⟨.mutation, rfl, ·⟩) (.imp (⟨.mutation, rfl, ·⟩) ?_)
      exact fun hrepeats => nomatch hrepeats.1
  | queries hpassed h =>
      obtain ⟨name, rfl, hcause⟩ :=
        cause_of_addRootFields_eq_error hpassed .query map_name_queryFields h
      refine .inr (.inr ⟨_, _, rfl, hcause.imp (⟨.query, rfl, ·⟩) (.imp (⟨.query, rfl, ·⟩) ?_)⟩)
      exact fun hrepeats => ⟨rfl, hrepeats.2⟩

/-- A schema that has been augmented has no user-declared object type whose name is invariable. -/
theorem not_isInvariable_of_augment_eq_ok {result : Augmentation} (h : augment schema = .ok result)
    {type : TypeDef} (htype : type ∈ schema.userObjects) :
    ¬IsInvariable (sourceName schema type) := by
  obtain ⟨added, extended, types, hpassed, -, hqueries, -⟩ := exists_passed h
  rw [hpassed.map_name_flatMap map_name_queryFields] at hqueries
  exact nodup_queryNames_iff.mp ((List.nodup_flatMap.mp hqueries).1 type htype)

/-! ### A schema of one type -/

/-- No name is synthesized for two types where there is only one. -/
theorem not_sharesAmong {type : TypeDef} (hobjects : schema.userObjects = [type])
    (names : String → List String) (name : String) : ¬SharesAmong schema names name := by
  rintro ⟨first, second, hsub, -⟩
  rw [hobjects] at hsub
  exact absurd hsub.length_le (Nat.not_succ_le_self 1)

/-- A type gives rise to no relations when no field of it refers to an object type. -/
theorem relations_singleton_eq_nil {type : TypeDef}
    (hleaves : ∀ field ∈ type.fields, ∀ leaf, schema.get? field.type.leafName = some leaf →
      leaf.isUserObject = false) :
    relations schema [type] = [] := by
  rw [relations, List.flatMap_singleton, List.filterMap_eq_nil_iff]
  intro field hfield
  rw [← Option.not_isSome_iff_eq_none, Option.isSome_iff_exists]
  rintro ⟨relation, hrelation⟩
  obtain ⟨-, referenced, hget, huser, -⟩ := relationOf?_eq_some_iff.mp hrelation
  exact Bool.false_ne_true ((hleaves field hfield referenced hget).symm.trans huser)

/-- **One object type is augmented** unless its name is invariable: what it refers to exists, it
leads to no relations, the name of its input type is free, and the roots declare nothing. -/
theorem exists_augment_iff_of_userObjects_eq {type : TypeDef}
    (hobjects : schema.userObjects = [type]) (hget : schema.get? type.name = some type)
    (hresolved : Resolved schema) (hrelations : relations (addResultScalars schema) [type] = [])
    (hfree : inputTypeName type.name ∉ schema.types.keys)
    (hroots : ∀ kind, (schema.root kind).fields = []) :
    (∃ result, augment schema = .ok result) ↔ ¬IsInvariable type.name := by
  have hsource : sourceName schema type = type.name := sourceName_of_get? hget rfl
  constructor
  · rintro ⟨result, haugment⟩
    have hvariable := not_isInvariable_of_augment_eq_ok haugment
      (hobjects ▸ List.mem_singleton_self type)
    rwa [hsource] at hvariable
  intro hvariable
  have hadded : ∀ {added extended types} (kind : OperationKind) {declared error},
      Passed schema added extended types →
      (∀ type : TypeDef, (declared type).map (·.name) = rootNames kind type.name) →
      addRootFields (schema.root kind) (types.flatMap declared) ≠ .error error := by
    intro added extended types kind declared error hpassed hnames h
    obtain ⟨name, -, hdeclared | hshares | ⟨-, other, hother, hinvariable, -⟩⟩ :=
      cause_of_addRootFields_eq_error hpassed kind hnames h
    · rw [TypeDef.hasField_iff, hroots kind] at hdeclared
      exact List.not_mem_nil hdeclared
    · exact not_sharesAmong hobjects _ _ hshares
    · rw [hobjects, List.mem_singleton] at hother
      exact hvariable (hsource ▸ hother ▸ hinvariable)
  refine (exists_eq_ok_or_error (augment schema)).resolve_right ?_
  rintro ⟨error, herror⟩
  cases passFails_of_augment_eq_error herror with
  | references h => cases h.symm.trans (requireReferences_eq_ok_iff.mpr hresolved)
  | relations _ h =>
      rw [hobjects, hrelations] at h
      cases h
  | inputs _ h =>
      obtain ⟨other, hother, hcause⟩ := cause_of_addInputs_eq_error h
      rw [hobjects, List.mem_singleton] at hother
      subst hother
      rw [hsource] at hcause
      rcases hcause with ⟨hmissing, -⟩ | ⟨-, htaken | hshares⟩
      · exact hmissing (TypeMap.contains_iff.mp (Option.isSome_iff_exists.mpr ⟨other, hget⟩))
      · exact hfree htaken
      · exact not_sharesAmong hobjects _ _ hshares
  | mutations hpassed h => exact hadded .mutation hpassed map_name_mutationFields h
  | queries hpassed h => exact hadded .query hpassed map_name_queryFields h

section Alone

variable {query mutation : String} {type : TypeDef} (hname : type.name ∉ standardScalars)

include hname

/-- The types are the scalars and the one that is declared. -/
theorem entries_declare_ofRoots :
    ((Schema.ofRoots query mutation).declare type).types.entries =
      (standardScalars.map fun name => (name, .givenScalar name)) ++ [(type.name, type)] :=
  TypeMap.entries_insert_of_notMem hname type

/-- The names of the types are those of the scalars and of the one that is declared. -/
theorem mem_keys_declare_ofRoots_iff {name : String} :
    name ∈ ((Schema.ofRoots query mutation).declare type).types.keys ↔
      name ∈ standardScalars ∨ name = type.name := by
  rw [TypeMap.keys, entries_declare_ofRoots hname, List.map_append, List.mem_append,
    List.map_singleton, List.mem_singleton]
  rfl

/-- The scalars are found under their names. -/
theorem get?_declare_ofRoots_of_mem {name : String} (h : name ∈ standardScalars) :
    ((Schema.ofRoots query mutation).declare type).get? name = some (.givenScalar name) := by
  rw [Schema.get?, TypeMap.get?_eq_some_iff, entries_declare_ofRoots hname]
  exact List.mem_append_left _ (List.mem_map_of_mem h)

/-- The one type is the only one that the user has declared. -/
theorem userObjects_declare_ofRoots (huser : type.isUserObject = true) :
    ((Schema.ofRoots query mutation).declare type).userObjects = [type] := by
  have hvalues : ((Schema.ofRoots query mutation).declare type).types.values =
      standardScalars.map .givenScalar ++ [type] := by
    rw [TypeMap.values, entries_declare_ofRoots hname, List.map_append]
    rfl
  have hscalars : (standardScalars.map TypeDef.givenScalar).filter (·.isUserObject) = [] := by
    decide
  rw [Schema.userObjects, hvalues, List.filter_append, hscalars, List.nil_append,
    List.filter_singleton, huser]
  rfl

/-- **A schema of one object type**, whose fields and arguments are scalars, is augmented unless
the name of the type is invariable. -/
theorem exists_augment_declare_ofRoots_iff (huser : type.isUserObject = true)
    (hscalars : ∀ field ∈ type.fields, field.type.leafName ∈ standardScalars ∧
      ∀ arg ∈ field.arguments, arg.type.leafName ∈ standardScalars) :
    (∃ result, augment ((Schema.ofRoots query mutation).declare type) = .ok result) ↔
      ¬IsInvariable type.name := by
  have hobjects := @userObjects_declare_ofRoots query mutation type hname huser
  have hkey := @mem_keys_declare_ofRoots_iff query mutation type hname
  refine exists_augment_iff_of_userObjects_eq hobjects
    ((TypeMap.get?_insert ..).trans (if_pos rfl)) ?_ ?_ ?_ ?_
  · rw [Resolved, hobjects, List.forall_mem_singleton]
    intro field hfield
    exact ⟨hkey.mpr (.inl (hscalars field hfield).1),
      fun arg harg => hkey.mpr (.inl ((hscalars field hfield).2 arg harg))⟩
  · refine relations_singleton_eq_nil fun field hfield leaf hget => ?_
    have hleaf := (hscalars field hfield).1
    have hmarker : ∀ name ∈ standardScalars, name ∉ mutationResults := by decide
    rw [get?_addResultScalars_of_notMem (hmarker _ hleaf),
      get?_declare_ofRoots_of_mem hname hleaf] at hget
    obtain rfl := Option.some.inj hget
    rfl
  · rw [hkey]
    rintro (hstandard | hsame)
    · exact inputTypeName_notMem (by decide) _ hstandard
    · exact Text.append_ne_self type.name (by decide) hsame
  · intro kind
    cases kind with
    | query => rfl
    | mutation => rfl

end Alone

end Augment

open Augment in
/-- **Why names collide.** In any schema, a name that is reported as a collision is declared where
it is to be synthesized, or synthesized for two user-declared object types, or it is the name of
both queries of one type, whose name is invariable. The last never happens to a schema that is
augmented. Nothing else that is synthesized for one type has one name, and a schema of one object
type with scalar fields is augmented unless the name of the type is invariable. -/
theorem augment_collision_cause (schema : Schema) :
    (∀ clash name, augment schema = .error (.namingCollision clash name) →
      Declares schema clash name ∨ Shares schema clash name ∨ Repeats schema clash name) ∧
    (∀ result, augment schema = .ok result →
      ∀ type ∈ schema.userObjects, ¬IsInvariable (sourceName schema type)) ∧
    (∀ source, (mutationNames source).Nodup ∧
      ((queryNames source).Nodup ↔ ¬IsInvariable source)) ∧
    ∀ (query mutation : String) (type : TypeDef), type.isUserObject = true →
      type.name ∉ standardScalars →
      (∀ field ∈ type.fields, field.type.leafName ∈ standardScalars ∧
        ∀ arg ∈ field.arguments, arg.type.leafName ∈ standardScalars) →
      ((∃ result, augment ((Schema.ofRoots query mutation).declare type) = .ok result) ↔
        ¬IsInvariable type.name) := by
  refine ⟨fun clash name h => ?_, fun result h type => not_isInvariable_of_augment_eq_ok h,
    fun source => ⟨nodup_mutationNames source, nodup_queryNames_iff⟩,
    fun query mutation type huser hname hscalars =>
      exists_augment_declare_ofRoots_iff hname huser hscalars⟩
  rcases cause_of_augment_eq_error_of_any h with ⟨entry, -, -, herror⟩ |
    ⟨type, -, -, reference, herror⟩ | ⟨clash', name', herror, hcause⟩
  · cases herror
  · cases herror
  · obtain ⟨rfl, rfl⟩ := GenerationError.namingCollision.inj herror
    exact hcause

/-- An object type with an identifier. -/
def entityNamed (name : String) : TypeDef where
  name := name
  fields := [{ name := "id", type := .named "ID" true }]

/-- A schema with that type only. -/
def schemaOfEntity (name : String) : Schema :=
  (Schema.ofRoots "Query" "Mutation").declare (entityNamed name)

/-- Films are augmented. A collision of fish has no other cause than that both queries have one
name. -/
theorem augment_collision_cause_film :
    (∃ result, augment (schemaOfEntity "Film") = .ok result) ∧
    Augment.Repeats (schemaOfEntity "Fish") (.rootField "Query") "fish" := by
  obtain ⟨-, -, -, halone⟩ := augment_collision_cause (schemaOfEntity "Fish")
  obtain ⟨hcause, -⟩ := augment_collision_cause (schemaOfEntity "Fish")
  refine ⟨(halone "Query" "Mutation" (entityNamed "Film") rfl (by decide) (by decide)).mpr
    (by decide), ?_⟩
  have hobjects : (schemaOfEntity "Fish").userObjects = [entityNamed "Fish"] := by rfl
  rcases hcause (.rootField "Query") "fish" (by rfl) with ⟨kind, -, hdeclared⟩ |
    ⟨kind, -, hshares⟩ | hrepeats
  · cases kind with
    | query => cases hdeclared
    | mutation => cases hdeclared
  · exact absurd hshares (Augment.not_sharesAmong hobjects _ _)
  · exact hrepeats

open Augment in
/-- **A type collides with itself**: a schema of fish is not augmented, although it declares no
query and no other type. -/
theorem augment_collides_fish :
    augment (schemaOfEntity "Fish") = .error (.namingCollision (.rootField "Query") "fish") ∧
    ¬Declares (schemaOfEntity "Fish") (.rootField "Query") "fish" ∧
    ¬Shares (schemaOfEntity "Fish") (.rootField "Query") "fish" := by
  have hobjects : (schemaOfEntity "Fish").userObjects = [entityNamed "Fish"] := by rfl
  refine ⟨by rfl, ?_, ?_⟩
  · rintro ⟨kind, -, hdeclared⟩
    cases kind with
    | query => cases hdeclared
    | mutation => cases hdeclared
  · rintro ⟨kind, -, hshares⟩
    exact not_sharesAmong hobjects _ _ hshares

end ClientSdk
