import Mathlib.Data.List.Forall2
import Mathlib.Data.List.Nodup

/-!
# Computations That May Fail

Most of the library runs in `Except`. This module takes such computations apart: a sequence
of two steps, a step for each member of a list (`mapM`), and a state that each member of a
list changes (`foldlM`).

## Main results

* `bind_eq_ok_iff`, `bind_eq_error_iff`: a sequence succeeds when both steps do, and fails at
  the first step that does.
* `mapM_eq_ok_iff`: a list is mapped member by member.
* `foldlM_induction`: what every step keeps, a whole fold keeps.
* `exists_step_of_foldlM_eq_error`: a failing fold fails at one member, in the state that the
  members before it lead to.
* `FailsOnly.bind`, `FailsOnly.mapM`: the errors of the steps are those of the whole.
* `SameOutcome.bind`, `SameOutcome.mapM`: two computations that go the same way step by step fail
  together, or give related results.
-/

namespace ClientSdk

variable {ε α β : Type}

/-! ### Sequences -/

/-- A sequence succeeds when its first step does and then its second. -/
theorem bind_eq_ok_iff {x : Except ε α} {f : α → Except ε β} {b : β} :
    (x >>= f) = .ok b ↔ ∃ a, x = .ok a ∧ f a = .ok b := by
  cases x with
  | error e => simp [bind, Except.bind]
  | ok a => simp [bind, Except.bind]

/-- A sequence fails in its first step, or in its second after a success of the first. -/
theorem bind_eq_error_iff {x : Except ε α} {f : α → Except ε β} {e : ε} :
    (x >>= f) = .error e ↔ x = .error e ∨ ∃ a, x = .ok a ∧ f a = .error e := by
  cases x with
  | error e' => simp [bind, Except.bind]
  | ok a => simp [bind, Except.bind]

/-- A step that changes the result of another succeeds when the other does. -/
theorem map_eq_ok_iff {x : Except ε α} {f : α → β} {b : β} :
    f <$> x = .ok b ↔ ∃ a, x = .ok a ∧ f a = b := by
  cases x with
  | error e => simp [Functor.map, Except.map]
  | ok a => simp [Functor.map, Except.map]

/-- A step that changes the result of another fails when the other does. -/
theorem map_eq_error_iff {x : Except ε α} {f : α → β} {e : ε} :
    f <$> x = .error e ↔ x = .error e := by
  cases x with
  | error e' => simp [Functor.map, Except.map]
  | ok a => simp [Functor.map, Except.map]

/-- Returning a value succeeds with that value. -/
theorem pure_eq_ok_iff {a b : α} : (pure a : Except ε α) = .ok b ↔ a = b := by
  simp [pure, Except.pure]

/-- Returning a value never fails. -/
theorem pure_ne_error {a : α} {e : ε} : (pure a : Except ε α) ≠ .error e := by
  simp [pure, Except.pure]

/-- A computation that is seen to succeed has a result. -/
theorem exists_eq_ok_of_isOk {x : Except ε α} (h : x.isOk = true) : ∃ a, x = .ok a := by
  cases x with
  | error e => cases h
  | ok a => exact ⟨a, rfl⟩

/-- A computation has a result or an error. -/
theorem exists_eq_ok_or_error (x : Except ε α) : (∃ a, x = .ok a) ∨ ∃ e, x = .error e := by
  cases x with
  | error e => exact .inr ⟨e, rfl⟩
  | ok a => exact .inl ⟨a, rfl⟩

/-- A step whose result is returned in some form fails when the step does. -/
theorem eq_error_of_bind_pure {x : Except ε α} {f : α → β} {e : ε}
    (h : (x >>= fun a => pure (f a)) = .error e) : x = .error e := by
  rcases bind_eq_error_iff.mp h with hx | ⟨a, -, hpure⟩
  · exact hx
  · exact absurd hpure pure_ne_error

/-! ### Lists -/

/-- Mapping a list succeeds when every member does, and gives the results in order. -/
theorem mapM_eq_ok_iff {f : α → Except ε β} {as : List α} {bs : List β} :
    as.mapM f = .ok bs ↔ List.Forall₂ (fun a b => f a = .ok b) as bs := by
  induction as generalizing bs with
  | nil => simp [pure, Except.pure, eq_comm]
  | cons a as ih =>
      simp only [List.mapM_cons, bind_eq_ok_iff, pure_eq_ok_iff, List.forall₂_cons_left_iff]
      constructor
      · rintro ⟨b, hb, rest, hrest, rfl⟩
        exact ⟨b, rest, hb, ih.mp hrest, rfl⟩
      · rintro ⟨b, rest, hb, hrest, rfl⟩
        exact ⟨b, hb, rest, ih.mpr hrest, rfl⟩

/-- Members that are related one by one are members of their lists. -/
theorem forall₂_and_mem {R : α → β → Prop} {as : List α} {bs : List β}
    (h : List.Forall₂ R as bs) :
    List.Forall₂ (fun a b => R a b ∧ a ∈ as ∧ b ∈ bs) as bs := by
  induction h with
  | nil => exact .nil
  | cons hab _ ih =>
      refine .cons ⟨hab, List.mem_cons_self, List.mem_cons_self⟩ (ih.imp ?_)
      rintro a b ⟨hR, ha, hb⟩
      exact ⟨hR, List.mem_cons_of_mem _ ha, List.mem_cons_of_mem _ hb⟩

/-- A member of the second list is related to one of the first. -/
theorem exists_left_of_forall₂ {R : α → β → Prop} {as : List α} {bs : List β}
    (h : List.Forall₂ R as bs) {b : β} (hb : b ∈ bs) : ∃ a ∈ as, R a b := by
  induction h with
  | nil => exact absurd hb List.not_mem_nil
  | @cons a b' as bs hab _ ih =>
      rcases List.mem_cons.mp hb with rfl | hmem
      · exact ⟨a, List.mem_cons_self, hab⟩
      · obtain ⟨a', ha', hR⟩ := ih hmem
        exact ⟨a', List.mem_cons_of_mem _ ha', hR⟩

/-- Every member of a list is related to something, or there is a first one that is not. -/
theorem forall₂_or_exists_first {R : α → β → Prop} {P : α → Prop} (as : List α)
    (h : ∀ a ∈ as, (∃ b, R a b) ∨ P a) :
    (∃ bs, List.Forall₂ R as bs) ∨
      ∃ done a rest bs, as = done ++ a :: rest ∧ List.Forall₂ R done bs ∧ P a := by
  induction as with
  | nil => exact .inl ⟨[], .nil⟩
  | cons a as ih =>
      obtain ⟨hfirst, hrest⟩ := List.forall_mem_cons.mp h
      rcases hfirst with ⟨b, hb⟩ | ha
      · rcases ih hrest with ⟨bs, hbs⟩ | ⟨done, a', rest, bs, rfl, hbs, ha'⟩
        · exact .inl ⟨b :: bs, .cons hb hbs⟩
        · exact .inr ⟨a :: done, a', rest, b :: bs, rfl, .cons hb hbs, ha'⟩
      · exact .inr ⟨[], a, as, [], rfl, .nil, ha⟩

/-- Lists are mapped to the same results where their members are. -/
theorem mapM_congr {f g : α → Except ε β} {as : List α} (h : ∀ a ∈ as, f a = g a) :
    as.mapM f = as.mapM g := by
  induction as with
  | nil => rfl
  | cons a as ih =>
      obtain ⟨hfirst, hrest⟩ := List.forall_mem_cons.mp h
      rw [List.mapM_cons, List.mapM_cons, hfirst, ih hrest]

/-- What mapping a list gives comes from its members. -/
theorem exists_of_mem_mapM {f : α → Except ε β} {as : List α} {bs : List β}
    (h : as.mapM f = .ok bs) {b : β} (hb : b ∈ bs) : ∃ a ∈ as, f a = .ok b :=
  exists_left_of_forall₂ (mapM_eq_ok_iff.mp h) hb

/-- Where mapping a list succeeds, each member gives one of the results. -/
theorem exists_mem_of_mapM {f : α → Except ε β} {as : List α} {bs : List β}
    (h : as.mapM f = .ok bs) {a : α} (ha : a ∈ as) : ∃ b ∈ bs, f a = .ok b :=
  exists_left_of_forall₂ (mapM_eq_ok_iff.mp h).flip ha

/-- The members of a list have distinct outcomes when their results are distinct. -/
theorem nodup_map_iff_of_forall₂ {f : α → Except ε β} {as : List α} {bs : List β}
    (h : List.Forall₂ (fun a b => f a = .ok b) as bs) : (as.map f).Nodup ↔ bs.Nodup := by
  have heq : as.map f = bs.map .ok := by
    induction h with
    | nil => rfl
    | cons hab _ ih => rw [List.map_cons, List.map_cons, hab, ih]
  rw [heq, List.nodup_map_iff fun _ _ => Except.ok.inj]

/-- Mapping a list fails at one of its members. -/
theorem exists_of_mapM_eq_error {f : α → Except ε β} {as : List α} {e : ε}
    (h : as.mapM f = .error e) : ∃ a ∈ as, f a = .error e := by
  induction as with
  | nil => exact absurd h pure_ne_error
  | cons a as ih =>
      rw [List.mapM_cons, bind_eq_error_iff] at h
      rcases h with hfirst | ⟨b, -, hrest⟩
      · exact ⟨a, List.mem_cons_self, hfirst⟩
      · obtain ⟨a', hmem, hf⟩ := ih (eq_error_of_bind_pure hrest)
        exact ⟨a', List.mem_cons_of_mem _ hmem, hf⟩

/-- **Induction along a fold.** What holds of the initial state and is kept by every member in
turn holds of the final state. -/
theorem foldlM_induction {motive : List α → β → Prop} {f : β → α → Except ε β}
    {as : List α} {b b' : β} (h : as.foldlM f b = .ok b') (nil : motive [] b)
    (snoc : ∀ done a rest c c', as = done ++ a :: rest → motive done c → f c a = .ok c' →
      motive (done ++ [a]) c') :
    motive as b' := by
  -- The members that are done already move from the list to the accumulated prefix.
  suffices key : ∀ done rest c, as = done ++ rest → motive done c →
      rest.foldlM f c = .ok b' → motive as b' from key [] as b rfl nil h
  intro done rest
  induction rest generalizing done with
  | nil =>
      intro c has hc hfold
      obtain rfl : c = b' := by simpa [pure, Except.pure] using hfold
      simpa [has] using hc
  | cons a rest ih =>
      intro c has hc hfold
      rw [List.foldlM_cons, bind_eq_ok_iff] at hfold
      obtain ⟨c', hstep, hfold⟩ := hfold
      exact ih (done ++ [a]) c' (by simpa using has) (snoc done a rest c c' has hc hstep) hfold

/-- A failing fold fails at one member, in the state that the members before it lead to. -/
theorem exists_step_of_foldlM_eq_error {f : β → α → Except ε β} {as : List α} {b : β} {e : ε}
    (h : as.foldlM f b = .error e) :
    ∃ done a rest c, as = done ++ a :: rest ∧ done.foldlM f b = .ok c ∧ f c a = .error e := by
  induction as generalizing b with
  | nil => exact absurd h pure_ne_error
  | cons a as ih =>
      rw [List.foldlM_cons, bind_eq_error_iff] at h
      rcases h with h | ⟨c, hc, h⟩
      · exact ⟨[], a, as, b, rfl, rfl, h⟩
      · obtain ⟨done, a', rest, c', rfl, hdone, hfail⟩ := ih h
        refine ⟨a :: done, a', rest, c', rfl, ?_, hfail⟩
        rw [List.foldlM_cons, bind_eq_ok_iff]
        exact ⟨c, hc, hdone⟩

/-! ### Causes of failure -/

/-- The computation has no errors but those with the property. -/
def FailsOnly (P : ε → Prop) (x : Except ε α) : Prop := ∀ e, x = .error e → P e

namespace FailsOnly

variable {P : ε → Prop}

protected theorem ok (a : α) : FailsOnly P (.ok a : Except ε α) := nofun

protected theorem pure (a : α) : FailsOnly P (pure a : Except ε α) := nofun

/-- A computation that has a result does not fail. -/
protected theorem of_eq_ok {x : Except ε α} {a : α} (h : x = .ok a) : FailsOnly P x :=
  h ▸ .ok a

protected theorem error {e : ε} (h : P e) : FailsOnly P (.error e : Except ε α) := by
  rintro _ ⟨⟩
  exact h

/-- A sequence has the errors of its first step, and of its second after the results of the
first. -/
protected theorem bind {x : Except ε α} {f : α → Except ε β} (h : FailsOnly P x)
    (hnext : ∀ a, x = .ok a → FailsOnly P (f a)) : FailsOnly P (x >>= f) := by
  intro e herror
  rcases bind_eq_error_iff.mp herror with hx | ⟨a, hx, hf⟩
  · exact h e hx
  · exact hnext a hx e hf

/-- Mapping a list has the errors of its members. -/
protected theorem mapM {f : α → Except ε β} {as : List α}
    (h : ∀ a ∈ as, FailsOnly P (f a)) : FailsOnly P (as.mapM f) := by
  intro e herror
  obtain ⟨a, ha, hf⟩ := exists_of_mapM_eq_error herror
  exact h a ha e hf

end FailsOnly

/-! ### Two computations -/

variable {α' β' : Type}

/-- Both computations fail, whatever their errors, or their results are related. -/
inductive SameOutcome (R : α → α' → Prop) : Except ε α → Except ε α' → Prop
  | error (e e' : ε) : SameOutcome R (.error e) (.error e')
  | ok {a : α} {a' : α'} : R a a' → SameOutcome R (.ok a) (.ok a')

namespace SameOutcome

variable {R : α → α' → Prop} {S : β → β' → Prop}

/-- A computation has its own outcome. -/
protected theorem refl (x : Except ε α) : SameOutcome Eq x x := by
  cases x with
  | error e => exact .error e e
  | ok a => exact .ok rfl

protected theorem symm {x y : Except ε α} (h : SameOutcome Eq x y) : SameOutcome Eq y x := by
  cases h with
  | error e e' => exact .error e' e
  | ok h => exact .ok h.symm

protected theorem trans {x y z : Except ε α} (h : SameOutcome Eq x y) (h' : SameOutcome Eq y z) :
    SameOutcome Eq x z := by
  cases h with
  | error e e' =>
      cases h' with
      | error _ e'' => exact .error e e''
  | ok h =>
      cases h' with
      | ok h' => exact .ok (h.trans h')

/-- Results that are related in one way are related in every weaker way. -/
protected theorem mono {R' : α → α' → Prop} {x : Except ε α} {y : Except ε α'}
    (h : SameOutcome R x y) (hweaker : ∀ a a', R a a' → R' a a') : SameOutcome R' x y := by
  cases h with
  | error e e' => exact .error e e'
  | ok h => exact .ok (hweaker _ _ h)

/-- Sequences have the same outcome when their first steps do, and their second steps do after
related results of the first. -/
protected theorem bind {x : Except ε α} {y : Except ε α'} {f : α → Except ε β}
    {g : α' → Except ε β'} (h : SameOutcome R x y)
    (hstep : ∀ a a', x = .ok a → R a a' → SameOutcome S (f a) (g a')) :
    SameOutcome S (x >>= f) (y >>= g) := by
  cases h with
  | error e e' => exact .error e e'
  | ok h => exact hstep _ _ rfl h

/-- Changing related results to related results keeps the outcome the same. -/
protected theorem map {x : Except ε α} {y : Except ε α'} {f : α → β} {g : α' → β'}
    (h : SameOutcome R x y) (hrelated : ∀ a a', R a a' → S (f a) (g a')) :
    SameOutcome S (f <$> x) (g <$> y) := by
  cases h with
  | error e e' => exact .error e e'
  | ok h => exact .ok (hrelated _ _ h)

/-- Lists that are mapped member by member to the same outcomes have the same outcome. -/
protected theorem mapM {f : α → Except ε β} {g : α' → Except ε β'} {as : List α}
    {as' : List α'} (h : List.Forall₂ (fun a a' => SameOutcome S (f a) (g a')) as as') :
    SameOutcome (List.Forall₂ S) (as.mapM f) (as'.mapM g) := by
  induction h with
  | nil => exact .ok .nil
  | cons hfirst _ ih =>
      rw [List.mapM_cons, List.mapM_cons]
      refine hfirst.bind fun b b' _ hb => ih.bind fun bs bs' _ hbs => ?_
      exact .ok (.cons hb hbs)

/-- Computations that succeed under the same condition, with related results, have the same
outcome. -/
theorem of_iff {x : Except ε α} {y : Except ε α'}
    (h : (∃ a, x = .ok a) ↔ ∃ a', y = .ok a')
    (hrelated : ∀ a a', x = .ok a → y = .ok a' → R a a') : SameOutcome R x y := by
  cases x with
  | error e =>
      cases y with
      | error e' => exact .error e e'
      | ok a' =>
          obtain ⟨_, h⟩ := h.mpr ⟨a', rfl⟩
          cases h
  | ok a =>
      cases y with
      | error e' =>
          obtain ⟨_, h⟩ := h.mp ⟨a, rfl⟩
          cases h
      | ok a' => exact .ok (hrelated a a' rfl rfl)

/-- The one fails exactly when the other does. -/
theorem exists_error_iff {x : Except ε α} {y : Except ε α'} (h : SameOutcome R x y) :
    (∃ e, x = .error e) ↔ ∃ e, y = .error e := by
  cases h with
  | error e e' => exact iff_of_true ⟨e, rfl⟩ ⟨e', rfl⟩
  | ok _ => simp

/-- When both succeed, their results are related. -/
theorem rel_of_eq_ok {x : Except ε α} {y : Except ε α'} {a : α} {a' : α'}
    (h : SameOutcome R x y) (hx : x = .ok a) (hy : y = .ok a') : R a a' := by
  cases h with
  | error e e' => cases hx
  | ok h =>
      obtain rfl := Except.ok.inj hx
      obtain rfl := Except.ok.inj hy
      exact h

end SameOutcome

end ClientSdk
