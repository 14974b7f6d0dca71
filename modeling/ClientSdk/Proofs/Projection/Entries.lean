import ClientSdk.Projection
import ClientSdk.Proofs.Lookup
import Mathlib.Data.String.Basic

/-!
# Sorted Entries

The map of a projection is a list of entries sorted by name. This module reads such a list
as a function from names to values: `List.lookup` determines the list, and `Projection.alter`
changes the function at one name.

## Main results

* `Projection.mem_iff_lookup`: the entries of a sorted list are what look-up finds.
* `Projection.Sorted.ext`: sorted lists with the same look-ups are equal.
* `Projection.sorted_alter`, `Projection.lookup_alter`: altering keeps the order and changes
  one look-up.
-/

namespace ClientSdk

namespace Projection

variable {α : Type}

/-- The names of the entries increase strictly. -/
def Sorted (entries : List (String × α)) : Prop :=
  entries.Pairwise fun a b => a.1 < b.1

/-- The names of sorted entries are distinct. -/
theorem Sorted.nodup_names {entries : List (String × α)} (h : Sorted entries) :
    (entries.map Prod.fst).Nodup := by
  rw [List.Nodup, List.pairwise_map]
  exact h.imp fun hlt => hlt.ne

/-! ### Look-up -/

/-- A name before all names of a list is not found there. -/
theorem lookup_eq_none_of_lt {entries : List (String × α)} {name : String}
    (h : ∀ entry ∈ entries, name < entry.1) : entries.lookup name = none := by
  rw [List.lookup_eq_none_iff]
  intro entry hentry
  simpa using (h entry hentry).ne

/-- The entries of a sorted list are what look-up finds. -/
theorem mem_iff_lookup {entries : List (String × α)} (h : Sorted entries) {name : String}
    {value : α} : (name, value) ∈ entries ↔ entries.lookup name = some value :=
  (lookup_eq_some_iff_mem h.nodup_names).symm

/-- **Extensionality.** Sorted lists with the same look-ups are equal. -/
theorem Sorted.ext {a b : List (String × α)} (ha : Sorted a) (hb : Sorted b)
    (h : ∀ name, a.lookup name = b.lookup name) : a = b := by
  have hmem : ∀ entry, entry ∈ a ↔ entry ∈ b := by
    intro entry
    rw [mem_iff_lookup ha, mem_iff_lookup hb, h]
  have hperm : a.Perm b :=
    (List.perm_ext_iff_of_nodup (List.Nodup.of_map _ ha.nodup_names)
      (List.Nodup.of_map _ hb.nodup_names)).mpr hmem
  refine hperm.eq_of_pairwise ?_ ha hb
  intro x y _ _ hxy hyx
  exact absurd (hxy.trans hyx) (lt_irrefl _)

/-! ### Altering -/

/-- The entries after altering are old ones, or the one under the altered name. -/
theorem fst_eq_or_mem_of_mem_alter {key : String} {f : Option α → α}
    {entries : List (String × α)} {entry : String × α} (h : entry ∈ alter key f entries) :
    entry.1 = key ∨ entry ∈ entries := by
  induction entries with
  | nil =>
      rw [alter, List.mem_singleton] at h
      exact Or.inl (by rw [h])
  | cons head rest ih =>
      obtain ⟨name, value⟩ := head
      rw [alter] at h
      split at h
      · rename_i heq
        rcases List.mem_cons.mp h with rfl | hmem
        · exact Or.inl heq
        · exact Or.inr (List.mem_cons_of_mem _ hmem)
      · split at h
        · rcases List.mem_cons.mp h with rfl | hmem
          · exact Or.inl rfl
          · exact Or.inr hmem
        · rcases List.mem_cons.mp h with rfl | hmem
          · exact Or.inr List.mem_cons_self
          · exact (ih hmem).imp id (List.mem_cons_of_mem _)

/-- Altering keeps the order. -/
theorem sorted_alter {entries : List (String × α)} (h : Sorted entries) (key : String)
    (f : Option α → α) : Sorted (alter key f entries) := by
  induction entries with
  | nil => exact List.pairwise_singleton _ _
  | cons head rest ih =>
      obtain ⟨name, value⟩ := head
      have hhead : ∀ entry ∈ rest, name < entry.1 := (List.pairwise_cons.mp h).1
      have hrest : Sorted rest := (List.pairwise_cons.mp h).2
      rw [alter]
      split
      · exact List.pairwise_cons.mpr ⟨hhead, hrest⟩
      · rename_i hne
        split
        · rename_i hlt
          refine List.pairwise_cons.mpr ⟨?_, h⟩
          intro entry hentry
          rcases List.mem_cons.mp hentry with rfl | hmem
          · exact hlt
          · exact hlt.trans (hhead entry hmem)
        · rename_i hnlt
          have hgt : name < key := lt_of_le_of_ne (not_lt.mp hnlt) hne
          refine List.pairwise_cons.mpr ⟨?_, ih hrest⟩
          intro entry hentry
          rcases fst_eq_or_mem_of_mem_alter hentry with heq | hmem
          · exact heq ▸ hgt
          · exact hhead entry hmem

/-- **Altering changes one look-up**: under the altered name stands what `f` makes of the old
value, and under the other names nothing changes. -/
theorem lookup_alter {entries : List (String × α)} (h : Sorted entries) (key : String)
    (f : Option α → α) (name : String) :
    (alter key f entries).lookup name =
      if name = key then some (f (entries.lookup key)) else entries.lookup name := by
  induction entries with
  | nil =>
      by_cases hname : name = key
      · simp [alter, hname]
      · simp [alter, List.lookup_cons, beq_eq_false_iff_ne.mpr hname, hname]
  | cons head rest ih =>
      obtain ⟨first, value⟩ := head
      have hhead : ∀ entry ∈ rest, first < entry.1 := (List.pairwise_cons.mp h).1
      have hrest : Sorted rest := (List.pairwise_cons.mp h).2
      rw [alter]
      split
      · rename_i heq
        subst heq
        by_cases hname : name = first
        · simp [hname]
        · simp [List.lookup_cons, beq_eq_false_iff_ne.mpr hname, hname]
      · rename_i hne
        split
        · rename_i hlt
          have hnone : ((first, value) :: rest).lookup key = none := by
            apply lookup_eq_none_of_lt
            intro entry hentry
            rcases List.mem_cons.mp hentry with rfl | hmem
            · exact hlt
            · exact hlt.trans (hhead entry hmem)
          rw [hnone]
          by_cases hname : name = key
          · simp [hname]
          · rw [List.lookup_cons, beq_eq_false_iff_ne.mpr hname, if_neg hname]
        · have hkey : ((first, value) :: rest).lookup key = rest.lookup key := by
            rw [List.lookup_cons, beq_eq_false_iff_ne.mpr (Ne.symm hne)]
          rw [hkey, List.lookup_cons, List.lookup_cons, ih hrest]
          by_cases hfirst : name = first
          · have hnk : name ≠ key := hfirst ▸ hne
            simp [hfirst, hne]
          · rw [beq_eq_false_iff_ne.mpr hfirst]

end Projection

end ClientSdk
