import ClientSdk.Proofs.Projection.Rearrangement

/-!
# Unions of Projections

Unions make sorted projections a semilattice: they can be made in any order, and a projection adds
nothing to itself. Joining two selection sets unites their projections, unless one of them is empty,
since no selection at all means every field. So the order of the entries of a selection set and
their repetitions leave no trace in its projection. A selection set has no projection if one of its
entries, at any depth, is no plain field, and the first such entry is reported.

## Main definitions

* `Selection.entriesOfAll`: the entries of a selection set at every depth, in document order.
* `Selection.SameEntries`: selection sets with the same entries, in any order and number.

## Main results

* `Projection.merge_comm`, `Projection.merge_self`: unions of sorted projections.
* `Projection.ofSelections_eq_error_iff`: the entry for which a selection set has no projection.
* `Projection.merge_semilattice`: the laws of unions, and the projections of joined selection sets.
-/

namespace ClientSdk

namespace Selection

/-! ### Entries in document order -/

mutual

/-- The entry and all that are below it, in document order, with the locations that they are
reported at: a field at its own path, and a fragment at that of the set which it stands in. -/
def entries (location : String) : Selection → List (String × Selection)
  | field name alias? selections =>
    (location ++ "." ++ name, field name alias? selections) ::
      entriesOfAll (location ++ "." ++ name) selections
  | spread fragment => [(location, spread fragment)]
  | inlineFragment condition => [(location, inlineFragment condition)]

/-- The entries of a selection set at every depth, in document order, with their locations. -/
def entriesOfAll (location : String) : List Selection → List (String × Selection)
  | [] => []
  | selection :: rest => selection.entries location ++ entriesOfAll location rest

end

/-- The entry is a field without an alias, whatever is below it. -/
def isPlain : Selection → Bool
  | field _ alias? _ => alias?.isNone
  | spread _ => false
  | inlineFragment _ => false

/-- What an entry that is no plain field is called in a report. -/
def reportedForm : Selection → String
  | field .. => "aliased nested field"
  | spread fragment => (spread fragment).form
  | inlineFragment condition => (inlineFragment condition).form

/-- The report of the first entry that is no plain field. -/
def firstFault? (entries : List (String × Selection)) : Option GenerationError :=
  (entries.find? fun entry => !entry.2.isPlain).map fun entry =>
    .unsupportedSelection entry.2.reportedForm entry.1

@[simp] theorem firstFault?_nil : firstFault? [] = none := rfl

/-- A plain field is not reported. -/
theorem firstFault?_cons_of_isPlain {entry : String × Selection}
    {entries : List (String × Selection)} (h : entry.2.isPlain = true) :
    firstFault? (entry :: entries) = firstFault? entries := by
  rw [firstFault?, List.find?_cons_of_neg (by simp [h]), firstFault?]

/-- An entry that is no plain field is reported before those that follow it. -/
theorem firstFault?_cons_of_not_isPlain {entry : String × Selection}
    {entries : List (String × Selection)} (h : entry.2.isPlain = false) :
    firstFault? (entry :: entries) =
      some (.unsupportedSelection entry.2.reportedForm entry.1) := by
  rw [firstFault?, List.find?_cons_of_pos (by simp [h]), Option.map_some]

/-- Of two lists of entries, the second is looked at where there is no fault in the first. -/
theorem firstFault?_append (first second : List (String × Selection)) :
    firstFault? (first ++ second) = (firstFault? first).or (firstFault? second) := by
  rw [firstFault?, List.find?_append, firstFault?, firstFault?]
  cases first.find? fun entry => !entry.2.isPlain <;> rfl

/-! ### The same entries -/

/-- Selection sets with the same entries, in any order and each as often as one likes. This may be
so at any depth. -/
inductive SameEntries : List Selection → List Selection → Prop
  /-- The sets have the same members. -/
  | members {selections selections' : List Selection} :
      (∀ selection, selection ∈ selections ↔ selection ∈ selections') →
      SameEntries selections selections'
  /-- The sets below one field have the same entries. -/
  | inside (before after : List Selection) (name : String) (alias? : Option String)
      {below below' : List Selection} : SameEntries below below' →
      SameEntries (before ++ field name alias? below :: after)
        (before ++ field name alias? below' :: after)
  /-- One change comes after the other. -/
  | trans {selections selections' selections'' : List Selection} :
      SameEntries selections selections' → SameEntries selections' selections'' →
      SameEntries selections selections''

namespace SameEntries

variable {selections selections' : List Selection}

/-- Whether selections can be read depends on their entries only. -/
theorem areReadable_eq (h : SameEntries selections selections') :
    areReadable selections = areReadable selections' := by
  induction h with
  | members hmem =>
      rw [areReadable_eq_all, areReadable_eq_all, Bool.eq_iff_iff, List.all_eq_true,
        List.all_eq_true]
      exact forall_congr' fun selection => imp_congr_left (hmem selection)
  | inside before after name alias? _ ih =>
      simp only [areReadable_append, areReadable, isReadable, ih]
  | trans _ _ ih ih' => rw [ih, ih']

/-- **Which paths are selected depends on the entries only.** Induction on the change. -/
theorem selectsPath_eq (h : SameEntries selections selections') (path : List String) :
    selectsPath selections path = selectsPath selections' path := by
  induction h generalizing path with
  | @members selections selections' hmem =>
      cases path with
      | nil => simp
      | cons name path =>
          have hempty : selections.isEmpty = selections'.isEmpty := by
            rw [Bool.eq_iff_iff, List.isEmpty_iff, List.isEmpty_iff, List.eq_nil_iff_forall_not_mem,
              List.eq_nil_iff_forall_not_mem]
            exact forall_congr' fun selection => not_congr (hmem selection)
          rw [selectsPath_cons, selectsPath_cons, hempty]
          congr 1
          rw [Bool.eq_iff_iff, List.any_eq_true, List.any_eq_true]
          exact exists_congr fun selection => and_congr_left fun _ => hmem selection
  | inside before after name alias? _ ih => exact selectsPath_inside before after name alias? ih path
  | trans _ _ ih ih' => rw [ih, ih']

end SameEntries

end Selection

namespace Projection

open Selection

/-! ### Laws of unions -/

variable {p q : Projection}

/-- Unions of sorted projections can be made in either order. -/
theorem merge_comm (hp : Ordered p) (hq : Ordered q) : p.merge q = q.merge p := by
  refine (hp.merge hq).eq_of_includesPath (hq.merge hp) fun path => ?_
  rw [includesPath_merge hp hq, includesPath_merge hq hp, Bool.or_comm]

/-- A sorted projection adds nothing to itself. -/
theorem merge_self (hp : Ordered p) : p.merge p = p := by
  refine (hp.merge hp).eq_of_includesPath hp fun path => ?_
  rw [includesPath_merge hp hp, Bool.or_self]

/-- Nothing can be added to all fields. -/
theorem all_merge (p : Projection) : all.merge p = all := by
  cases p with
  | all => rw [merge]
  | fields entries => rw [merge]

/-- All fields stay all fields. -/
theorem merge_all (p : Projection) : p.merge all = all := by
  rw [merge]

/-- No field adds nothing to a sorted projection. -/
theorem merge_fields_nil (hp : Ordered p) : p.merge (fields []) = p := by
  refine (hp.merge ordered_fields_nil).eq_of_includesPath hp fun path => ?_
  rw [includesPath_merge hp ordered_fields_nil]
  cases path with
  | nil => simp
  | cons name path => rw [includesPath_fields_cons, List.lookup_nil, Option.any_none, Bool.or_false]

/-- A union includes the fields of both projections. -/
theorem includes_merge (hp : Ordered p) (hq : Ordered q) (name : String) :
    (p.merge q).includes name = (p.includes name || q.includes name) := by
  have hpath : ∀ r : Projection, r.includesPath [name] = r.includes name := fun r => by
    rw [includesPath_cons, includesPath_nil, Bool.and_true]
  rw [← hpath, ← hpath, ← hpath, includesPath_merge hp hq]

/-! ### Projections of selections -/

/-- A selection set has a projection where its entries can be added to none. -/
theorem ofSelections_eq_error_iff_selectEntries {location : String} {selections : List Selection}
    {e : GenerationError} :
    ofSelections location selections = .error e ↔
      selectEntries location [] selections = .error e := by
  rw [ofSelections]
  cases selections with
  | nil => simp [selectEntries]
  | cons selection rest => rw [List.isEmpty_cons, if_neg Bool.false_ne_true, map_eq_error_iff]

mutual

/-- An entry cannot be added where it, or an entry below it, is no plain field. -/
private theorem selectEntry_eq_error_iff (location : String)
    (entries : List (String × Projection)) {e : GenerationError} :
    (selection : Selection) → (selectEntry location entries selection = .error e ↔
      firstFault? (selection.entries location) = some e)
  | .field name (some other) below => by
      rw [Selection.entries, firstFault?_cons_of_not_isPlain rfl, selectEntry]
      simp [reportedForm]
  | .field name none below => by
      have hread : selectEntry location entries (.field name none below) =
          (ofSelections (location ++ "." ++ name) below >>= fun p =>
            pure (alter name (fun found? => found?.elim p (merge · p)) entries)) := by
        rw [selectEntry, ofSelections]
        cases below with
        | nil => rfl
        | cons selection rest => rfl
      rw [Selection.entries, firstFault?_cons_of_isPlain rfl,
        ← selectEntries_eq_error_iff _ [] below, ← ofSelections_eq_error_iff_selectEntries, hread,
        bind_eq_error_iff]
      exact or_iff_left fun ⟨_, _, hpure⟩ => pure_ne_error hpure
  | .spread fragment => by
      rw [Selection.entries, firstFault?_cons_of_not_isPlain rfl, selectEntry]
      simp [reportedForm]
  | .inlineFragment condition => by
      rw [Selection.entries, firstFault?_cons_of_not_isPlain rfl, selectEntry]
      simp [reportedForm]

/-- Entries cannot be added where one of them, at any depth, is no plain field. -/
private theorem selectEntries_eq_error_iff (location : String)
    (entries : List (String × Projection)) {e : GenerationError} :
    (selections : List Selection) → (selectEntries location entries selections = .error e ↔
      firstFault? (entriesOfAll location selections) = some e)
  | [] => by simp [selectEntries, entriesOfAll]
  | selection :: rest => by
      rw [selectEntries, bind_eq_error_iff, entriesOfAll, firstFault?_append, Option.or_eq_some_iff]
      have hfirst : ∀ e, selectEntry location entries selection = .error e ↔
          firstFault? (selection.entries location) = some e :=
        fun _ => selectEntry_eq_error_iff location entries selection
      refine or_congr (hfirst e) ?_
      cases hentry : selectEntry location entries selection with
      | error e' => simp [(hfirst e').mp hentry]
      | ok middle =>
          have hnone : firstFault? (selection.entries location) = none := by
            rw [Option.eq_none_iff_forall_ne_some]
            intro e' hfault
            cases hentry.symm.trans ((hfirst e').mpr hfault)
          simp [hnone, selectEntries_eq_error_iff location middle rest]

end

/-- **A selection set has no projection** where one of its entries, at any depth, is no plain field,
and the first of these in document order is reported. -/
theorem ofSelections_eq_error_iff {location : String} {selections : List Selection}
    {e : GenerationError} :
    ofSelections location selections = .error e ↔
      firstFault? (entriesOfAll location selections) = some e :=
  ofSelections_eq_error_iff_selectEntries.trans (selectEntries_eq_error_iff location [] selections)

/-- Joined selection sets have the union of their projections, if both have one. -/
theorem ofSelections_append_eq_ok_iff {first second : List Selection} (hfirst : first ≠ [])
    (hsecond : second ≠ []) {location : String} {union : Projection} :
    ofSelections location (first ++ second) = .ok union ↔
      ∃ q r, ofSelections location first = .ok q ∧ ofSelections location second = .ok r ∧
        union = q.merge r := by
  constructor
  · intro hunion
    obtain ⟨⟨q, hq⟩, r, hr⟩ := exists_ofSelections_append_iff.mp ⟨union, hunion⟩
    exact ⟨q, r, hq, hr, ofSelections_append hfirst hsecond hunion hq hr⟩
  · rintro ⟨q, r, hq, hr, rfl⟩
    obtain ⟨union, hunion⟩ := exists_ofSelections_append_iff.mpr ⟨⟨q, hq⟩, r, hr⟩
    rw [hunion, ofSelections_append hfirst hsecond hunion hq hr]

/-- **Selection sets with the same entries have the same projection.** -/
theorem ofSelections_sameEntries {selections selections' : List Selection}
    (h : SameEntries selections selections') (location : String) :
    SameOutcome Eq (ofSelections location selections) (ofSelections location selections') :=
  ofSelections_congr h.areReadable_eq h.selectsPath_eq location

/-- **Unions make a semilattice, and selection sets are mapped into it.** Unions of sorted
projections, as all that are made here are, are associative, commutative and idempotent; all fields
absorb, no field adds nothing, and a union includes the fields of both sides. Joined selection sets
have the union of their projections, if both have one. A selection set has none exactly if some entry
at some depth is no plain field, and then the first such entry in document order is reported. So the
order and the repetition of entries do not change the projection. -/
theorem merge_semilattice {p q r : Projection} (hp : Ordered p) (hq : Ordered q) (hr : Ordered r)
    {first second : List Selection} (hfirst : first ≠ []) (hsecond : second ≠ [])
    (location : String) :
    ((p.merge q).merge r = p.merge (q.merge r) ∧ p.merge q = q.merge p ∧ p.merge p = p ∧
      (all.merge p = all ∧ p.merge all = all) ∧
      ((fields []).merge p = p ∧ p.merge (fields []) = p) ∧
      ∀ name, (p.merge q).includes name = (p.includes name || q.includes name)) ∧
    (∀ union, ofSelections location (first ++ second) = .ok union ↔
      ∃ a b, ofSelections location first = .ok a ∧ ofSelections location second = .ok b ∧
        union = a.merge b) ∧
    (∀ e, ofSelections location first = .error e ↔
      ∃ entry, (entriesOfAll location first).find? (fun entry => !entry.2.isPlain) = some entry ∧
        e = .unsupportedSelection entry.2.reportedForm entry.1) ∧
    ∀ other, SameEntries first other →
      SameOutcome Eq (ofSelections location first) (ofSelections location other) := by
  refine ⟨⟨merge_assoc hp hq hr, merge_comm hp hq, merge_self hp, ⟨all_merge p, merge_all p⟩,
    ⟨?_, merge_fields_nil hp⟩, includes_merge hp hq⟩,
    fun _ => ofSelections_append_eq_ok_iff hfirst hsecond, fun e => ?_,
    fun _ hsame => ofSelections_sameEntries hsame location⟩
  · rw [merge_comm ordered_fields_nil hp, merge_fields_nil hp]
  · rw [ofSelections_eq_error_iff, firstFault?, Option.map_eq_some_iff]
    exact exists_congr fun entry => and_congr_right fun _ => eq_comm

/-- Selects the title of a film and the name of its studio. -/
def selectCredits : List Selection :=
  [.field "title" none [], .field "studio" none [.field "name" none []]]

/-- Selects the films of a studio: their titles under another name, and then a fragment. -/
def selectFilmography : List Selection :=
  [.field "studio" none [.field "films" none [.field "title" (some "name") []], .spread "Films"]]

/-- Selecting the credits of a film twice is like selecting them once, in any order; and the alias
below the films is reported before the fragment that follows it. -/
theorem merge_semilattice_credits :
    ∃ p, ofSelections "Find.film" selectCredits = .ok p ∧
      ofSelections "Find.film" (selectCredits.reverse ++ selectCredits) = .ok p ∧
      ofSelections "Find.film" (selectCredits ++ selectFilmography) =
        .error (.unsupportedSelection "aliased nested field" "Find.film.studio.films.title") := by
  obtain ⟨p, hp⟩ : ∃ p, ofSelections "Find.film" selectCredits = .ok p := ⟨_, rfl⟩
  have hordered := ordered_of_ofSelections hp
  have hlaws := fun {first second : List Selection} (hfirst : first ≠ []) (hsecond : second ≠ []) =>
    merge_semilattice hordered hordered hordered hfirst hsecond "Find.film"
  have hreverse : ofSelections "Find.film" selectCredits.reverse = .ok p := by
    obtain ⟨-, -, -, hsame⟩ := @hlaws selectCredits selectCredits (by simp [selectCredits])
      (by simp [selectCredits])
    have houtcome := hsame selectCredits.reverse (.members fun _ => List.mem_reverse.symm)
    rw [hp] at houtcome
    generalize ofSelections "Find.film" selectCredits.reverse = result at houtcome
    cases houtcome with
    | ok h => rw [h]
  refine ⟨p, hp, ?_, ?_⟩
  · obtain ⟨⟨-, -, hself, -⟩, happend, -⟩ := @hlaws selectCredits.reverse selectCredits
      (by simp [selectCredits]) (by simp [selectCredits])
    exact (happend p).mpr ⟨p, p, hreverse, hp, hself.symm⟩
  · obtain ⟨-, -, hfault, -⟩ := @hlaws (selectCredits ++ selectFilmography) selectCredits
      (by simp [selectCredits]) (by simp [selectCredits])
    exact (hfault _).mpr ⟨_, rfl, rfl⟩

end Projection

end ClientSdk
