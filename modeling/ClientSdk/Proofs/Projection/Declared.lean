import ClientSdk.Proofs.Projection.NormalForm

/-!
# Declared Selections

A selection set fits a type when it names fields that the type declares, and below each field
fits the type of that field. Its projection then names declared fields only. So does a union of
such projections, which arises when a response key is selected again.

## Main definitions

* `Selection.namesFields`: the selections fit a type.

## Main results

* `Projection.NamesFields.merge`, `Projection.namesFields_of_ofSelections`.
-/

namespace ClientSdk

namespace Selection

mutual

/-- The selection is a field that `type` declares, and below it are fields that the type of the
field declares. -/
def namesField (schema : Schema) : Selection → TypeDef → Bool
  | field name _ selections, type =>
    (Projection.childType? schema type name).any fun child => namesFields schema selections child
  | spread _, _ => false
  | inlineFragment _, _ => false

/-- The selections are fields that `type` declares, and so on below each of them. -/
def namesFields (schema : Schema) : List Selection → TypeDef → Bool
  | [], _ => true
  | selection :: rest, type => selection.namesField schema type && namesFields schema rest type

end

end Selection

namespace Projection

variable {schema : Schema} {type : TypeDef}

/-- A property of entries is kept by altering if the new entry has it. -/
theorem forall_mem_alter {α : Type} {key : String} {f : Option α → α}
    {entries : List (String × α)} {motive : String × α → Prop}
    (hentries : ∀ entry ∈ entries, motive entry) (hnone : motive (key, f none))
    (hsome : ∀ value, (key, value) ∈ entries → motive (key, f (some value))) :
    ∀ entry ∈ alter key f entries, motive entry := by
  induction entries with
  | nil =>
      intro entry hentry
      rw [alter, List.mem_singleton] at hentry
      exact hentry ▸ hnone
  | cons head rest ih =>
      obtain ⟨name, value⟩ := head
      obtain ⟨hhead, hrest⟩ := List.forall_mem_cons.mp hentries
      rw [alter]
      split
      · rename_i hname
        subst hname
        exact List.forall_mem_cons.mpr ⟨hsome value List.mem_cons_self, hrest⟩
      · split
        · exact List.forall_mem_cons.mpr ⟨hnone, hentries⟩
        · refine List.forall_mem_cons.mpr ⟨hhead, ih hrest ?_⟩
          exact fun value hvalue => hsome value (List.mem_cons_of_mem _ hvalue)

/-- An entry of a map on declared fields: its name is declared, and its projection names declared
fields of the type of that field. -/
def NamesField (schema : Schema) (type : TypeDef) (entry : String × Projection) : Prop :=
  type.hasField entry.1 = true ∧
    ∀ child, childType? schema type entry.1 = some child → NamesFields schema child entry.2

/-- A map names declared fields when each entry does. -/
theorem namesFields_fields_iff {entries : List (String × Projection)} :
    NamesFields schema type (fields entries) ↔
      ∀ entry ∈ entries, NamesField schema type entry := by
  constructor
  · intro h entry hentry
    cases h with
    | fields hhas hchildren => exact ⟨hhas entry hentry, hchildren entry hentry⟩
  · intro h
    exact .fields (fun entry hentry => (h entry hentry).1)
      (fun entry hentry => (h entry hentry).2)

/-- Adding a projection under a name, in union with the one that is there, keeps declared
names. -/
private theorem namesField_alter {key : String} {q : Projection}
    {entries : List (String × Projection)}
    (h : ∀ entry ∈ entries, NamesField schema type entry) (hq : NamesField schema type (key, q))
    (hunite : ∀ child, childType? schema type key = some child → ∀ p,
      NamesFields schema child p → NamesFields schema child (merge p q)) :
    ∀ entry ∈ alter key (fun found? => found?.elim q (merge · q)) entries,
      NamesField schema type entry := by
  refine forall_mem_alter h hq fun p hp => ⟨hq.1, fun child hchild => ?_⟩
  exact hunite child hchild p ((h _ hp).2 child hchild)

/-- **A union of projections on declared fields** names declared fields. Induction on the second
projection, whose entries go one by one into the first. -/
theorem NamesFields.merge {p q : Projection} (hp : NamesFields schema type p)
    (hq : NamesFields schema type q) : NamesFields schema type (p.merge q) := by
  induction hq generalizing p with
  | all =>
      rw [Projection.merge]
      exact .all
  | @fields type b hhas hchildren ih =>
      cases p with
      | all =>
          rw [Projection.merge]
          exact .all
      | fields a =>
          rw [Projection.merge]
          rw [namesFields_fields_iff] at hp ⊢
          have hb : ∀ entry ∈ b, NamesField schema type entry :=
            fun entry hentry => ⟨hhas entry hentry, hchildren entry hentry⟩
          clear hhas hchildren
          induction b generalizing a with
          | nil =>
              rw [mergeEntries]
              exact hp
          | cons entry rest ihrest =>
              obtain ⟨key, q⟩ := entry
              rw [mergeEntries]
              refine ihrest (fun entry hentry => ih entry (List.mem_cons_of_mem _ hentry)) _ ?_
                (List.forall_mem_cons.mp hb).2
              exact namesField_alter hp (hb _ List.mem_cons_self) fun child hchild p hp' =>
                ih _ List.mem_cons_self child hchild hp'

/-- A selection set that fits a type starts with a declared field and what fits the type of that
field. -/
theorem namesFields_field_cons {name : String} {alias? : Option String}
    {below rest : List Selection}
    (h : Selection.namesFields schema (.field name alias? below :: rest) type = true) :
    (∃ child, childType? schema type name = some child ∧
        Selection.namesFields schema below child = true) ∧
      Selection.namesFields schema rest type = true := by
  rw [Selection.namesFields, Selection.namesField, Bool.and_eq_true, Option.any_eq_true] at h
  exact h

/-- The projection of a selection set names declared fields, if its entries do. -/
private theorem namesFields_of_entries {location : String} {selections : List Selection}
    {p : Projection} (h : ofSelections location selections = .ok p)
    (hentries : ∀ result, selectEntries location [] selections = .ok result →
      ∀ entry ∈ result, NamesField schema type entry) : NamesFields schema type p := by
  rw [ofSelections] at h
  split at h
  · obtain rfl : all = p := Except.ok.inj h
    exact .all
  · rw [map_eq_ok_iff] at h
    obtain ⟨result, hresult, rfl⟩ := h
    exact namesFields_fields_iff.mpr (hentries result hresult)

/-- One field that fits a type adds an entry on declared fields. -/
private theorem namesField_field {name : String} {p : Projection} {child : TypeDef}
    {entries : List (String × Projection)}
    (hentries : ∀ entry ∈ entries, NamesField schema type entry)
    (hchild : childType? schema type name = some child) (hp : NamesFields schema child p) :
    ∀ entry ∈ alter name (fun found? => found?.elim p (merge · p)) entries,
      NamesField schema type entry := by
  have hfield : type.hasField name = true := by
    obtain ⟨field, hmem, rfl, -⟩ := exists_field_of_childType? hchild
    exact TypeDef.hasField_of_mem hmem
  refine namesField_alter hentries ⟨hfield, ?_⟩ ?_
  · intro child' hchild'
    obtain rfl := Option.some.inj (hchild.symm.trans hchild')
    exact hp
  · intro child' hchild' q hq
    obtain rfl := Option.some.inj (hchild.symm.trans hchild')
    exact hq.merge hp

mutual

/-- Reading a selection that fits a type adds declared fields. -/
private theorem namesField_of_selectEntry (location : String)
    (entries : List (String × Projection)) :
    (selection : Selection) → (type : TypeDef) → (result : List (String × Projection)) →
      selectEntry location entries selection = .ok result →
      selection.namesField schema type = true →
      (∀ entry ∈ entries, NamesField schema type entry) →
      ∀ entry ∈ result, NamesField schema type entry
  | .field name alias? below, type, result => by
      intro h hfits hentries
      rw [Selection.namesField, Option.any_eq_true] at hfits
      obtain ⟨child, hchild, hbelow⟩ := hfits
      obtain ⟨-, p, hp, rfl⟩ := selectEntry_field_eq_ok_iff.mp h
      refine namesField_field hentries hchild
        (namesFields_of_entries hp fun inner hinner => ?_)
      exact namesField_of_selectEntries _ [] below child inner hinner hbelow
        fun _ hmem => absurd hmem List.not_mem_nil
  | .spread fragment, type, result => by
      intro h
      simp [selectEntry] at h
  | .inlineFragment condition, type, result => by
      intro h
      simp [selectEntry] at h

/-- Reading a selection set that fits a type adds declared fields. -/
private theorem namesField_of_selectEntries (location : String)
    (entries : List (String × Projection)) :
    (selections : List Selection) → (type : TypeDef) → (result : List (String × Projection)) →
      selectEntries location entries selections = .ok result →
      Selection.namesFields schema selections type = true →
      (∀ entry ∈ entries, NamesField schema type entry) →
      ∀ entry ∈ result, NamesField schema type entry
  | [], type, result => by
      intro h _ hentries
      obtain rfl : entries = result := by simpa [selectEntries] using h
      exact hentries
  | selection :: rest, type, result => by
      intro h hfits hentries
      rw [Selection.namesFields, Bool.and_eq_true] at hfits
      obtain ⟨middle, hfirst, hrest⟩ := selectEntries_cons_eq_ok_iff.mp h
      exact namesField_of_selectEntries location middle rest type result hrest hfits.2
        (namesField_of_selectEntry location entries selection type middle hfirst hfits.1
          hentries)

end

/-- **The projection of a selection set that fits a type** names declared fields only. -/
theorem namesFields_of_ofSelections {location : String} {selections : List Selection}
    {p : Projection} (h : ofSelections location selections = .ok p)
    (hnames : Selection.namesFields schema selections type = true) :
    NamesFields schema type p :=
  namesFields_of_entries h fun _ hresult =>
    namesField_of_selectEntries location [] selections type _ hresult hnames
      fun _ hmem => absurd hmem List.not_mem_nil

end Projection

end ClientSdk
