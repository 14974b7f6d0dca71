import ClientSdk.Augmentation
import Mathlib.Data.List.Nodup

/-!
# Look-Up

Type maps and the maps of projections are lists of entries. This module relates what
`List.lookup` finds to the entries, and reads a type map through `TypeMap.get?`.
Where a type must be there, `Augment.typeNamed` finds it or fails.

## Main results

* `nodup_cons_and_notMem_iff`: distinct names that keep clear of those before them, name by name.
* `lookup_eq_some_iff_mem`: with distinct names, the entries are what look-up finds.
* `TypeMap.get?_eq_some_iff`: the same for a type map.
* `Augment.typeNamed_eq_ok_iff`, `Augment.typeNamed_eq_error_iff`: when a type is found.
-/

namespace ClientSdk

variable {α β : Type}

/-! ### Distinct members -/

/-- Members of a list are distinct and none of them is taken when the first one is not, and then
takes its place before the others. -/
theorem nodup_cons_and_notMem_iff {a : α} {as taken : List α} :
    ((a :: as).Nodup ∧ ∀ b ∈ a :: as, b ∉ taken) ↔
      a ∉ taken ∧ as.Nodup ∧ ∀ b ∈ as, b ∉ a :: taken := by
  rw [List.nodup_cons, List.forall_mem_cons]
  constructor
  · rintro ⟨⟨hfresh, hnodup⟩, hfree, hrest⟩
    refine ⟨hfree, hnodup, fun b hb hmem => ?_⟩
    rcases List.mem_cons.mp hmem with rfl | htaken
    · exact hfresh hb
    · exact hrest b hb htaken
  · rintro ⟨hfree, hnodup, hrest⟩
    exact ⟨⟨fun hmem => hrest a hmem List.mem_cons_self, hnodup⟩, hfree,
      fun b hb htaken => hrest b hb (List.mem_cons_of_mem _ htaken)⟩

/-! ### Association lists -/

/-- What look-up finds is an entry. -/
theorem mem_of_lookup_eq_some {entries : List (String × α)} {name : String} {value : α}
    (h : entries.lookup name = some value) : (name, value) ∈ entries := by
  obtain ⟨before, after, rfl, -⟩ := List.lookup_eq_some_iff.mp h
  simp

/-- With distinct names, an entry is what look-up finds under its name. -/
theorem lookup_eq_some_of_mem {entries : List (String × α)} {name : String} {value : α}
    (hnodup : (entries.map Prod.fst).Nodup) (h : (name, value) ∈ entries) :
    entries.lookup name = some value := by
  induction entries with
  | nil => exact absurd h List.not_mem_nil
  | cons entry rest ih =>
      obtain ⟨key, other⟩ := entry
      rw [List.map_cons, List.nodup_cons] at hnodup
      rcases List.mem_cons.mp h with heq | hmem
      · obtain ⟨rfl, rfl⟩ := Prod.mk.injEq .. ▸ heq
        exact List.lookup_cons_self
      · have hne : name ≠ key := by
          rintro rfl
          exact hnodup.1 (List.mem_map.mpr ⟨_, hmem, rfl⟩)
        rw [List.lookup_cons, beq_eq_false_iff_ne.mpr hne]
        exact ih hnodup.2 hmem

/-- With distinct names, the entries are what look-up finds. -/
theorem lookup_eq_some_iff_mem {entries : List (String × α)} {name : String} {value : α}
    (hnodup : (entries.map Prod.fst).Nodup) :
    entries.lookup name = some value ↔ (name, value) ∈ entries :=
  ⟨mem_of_lookup_eq_some, lookup_eq_some_of_mem hnodup⟩

/-- Look-up finds something under the names of the entries. -/
theorem isSome_lookup_iff {entries : List (String × α)} {name : String} :
    (entries.lookup name).isSome ↔ name ∈ entries.map Prod.fst := by
  rw [List.lookup_isSome_iff, List.mem_map]
  constructor
  · rintro ⟨entry, hentry, hname⟩
    exact ⟨entry, hentry, (beq_iff_eq.mp hname).symm⟩
  · rintro ⟨entry, hentry, rfl⟩
    exact ⟨entry, hentry, beq_self_eq_true _⟩

/-- Changing the values of entries, each by its name, changes what look-up finds. -/
theorem lookup_map_value (f : String → α → β) (entries : List (String × α)) (name : String) :
    (entries.map fun entry => (entry.1, f entry.1 entry.2)).lookup name =
      (entries.lookup name).map (f name) := by
  induction entries with
  | nil => rfl
  | cons entry rest ih =>
      rw [List.map_cons, List.lookup_cons, List.lookup_cons]
      by_cases h : name = entry.1
      · simp [h]
      · rw [beq_eq_false_iff_ne.mpr h]
        exact ih

/-- With distinct names, one member has the name of a member. -/
theorem filter_eq_singleton {name : α → String} {as : List α} (hnodup : (as.map name).Nodup)
    {a : α} (ha : a ∈ as) : as.filter (fun b => name b == name a) = [a] := by
  obtain ⟨before, after, rfl⟩ := List.append_of_mem ha
  rw [List.map_append, List.map_cons, List.nodup_append, List.nodup_cons] at hnodup
  obtain ⟨-, ⟨hafter, -⟩, hbefore⟩ := hnodup
  rw [List.filter_append, List.filter_cons, if_pos (beq_self_eq_true _),
    List.filter_eq_nil_iff.mpr, List.filter_eq_nil_iff.mpr, List.nil_append]
  · intro b hb hname
    exact hafter (beq_iff_eq.mp hname ▸ List.mem_map_of_mem hb)
  · intro b hb hname
    exact hbefore _ (List.mem_map_of_mem hb) _ List.mem_cons_self (beq_iff_eq.mp hname)

/-- With distinct names, a member is what is found under its name. -/
theorem find?_eq_some_of_nodup {name : α → String} {as : List α}
    (hnodup : (as.map name).Nodup) {a : α} (ha : a ∈ as) :
    as.find? (fun b => name b == name a) = some a := by
  rw [← List.head?_filter, filter_eq_singleton hnodup ha, List.head?_cons]

/-! ### Type maps -/

namespace TypeMap

/-- The definitions of a type map are those under its keys. -/
theorem get?_eq_some_iff {types : TypeMap} {key : String} {type : TypeDef} :
    types.get? key = some type ↔ (key, type) ∈ types.entries :=
  lookup_eq_some_iff_mem types.nodup_keys

/-- There is a definition under each key, and under nothing else. -/
theorem contains_iff {types : TypeMap} {key : String} :
    types.contains key = true ↔ key ∈ types.keys :=
  isSome_lookup_iff

end TypeMap

namespace Augment

variable {schema : Schema} {name : String} {reference : Reference}

/-- A type that is looked up is found in the schema. -/
theorem typeNamed_eq_ok_iff {type : TypeDef} :
    typeNamed schema name reference = .ok type ↔ schema.get? name = some type := by
  rw [typeNamed]
  cases schema.get? name with
  | none => simp
  | some found => simp

/-- A type is missing when nothing stands under its name. -/
theorem typeNamed_eq_error_iff {error : GenerationError} :
    typeNamed schema name reference = .error error ↔
      name ∉ schema.types.keys ∧ error = .missingType name reference := by
  rw [typeNamed, ← TypeMap.contains_iff, TypeMap.contains, ← Schema.get?]
  cases schema.get? name with
  | none => simp [eq_comm]
  | some found => simp

end Augment

end ClientSdk
