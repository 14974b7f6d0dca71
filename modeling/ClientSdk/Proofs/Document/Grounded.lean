import ClientSdk.Document.Grounded
import Mathlib.Data.Fintype.Card
import Mathlib.Data.Set.Finite.Basic
import Mathlib.Logic.Relation

/-!
# Rounds Find Cycles

Names that refer to names are left out round after round, as long as one of them refers to none of
those still there. What is left in the end is what leads back to itself, with all that leads there:
a name that leads into a cycle is never left out, and where nothing leads back to itself, each
round leaves something out.

## Main definitions

* `References.Leads`: a name refers to another one.

## Main results

* `References.isGrounded_iff`: references are grounded exactly when no name leads back to itself.
-/

namespace ClientSdk

namespace References

open Relation

variable {references : References}

/-- The name `first` refers to the name `second`. -/
def Leads (references : References) (first second : String) : Prop :=
  ∃ entry ∈ references, entry.1 = first ∧ second ∈ entry.2

/-- What is left after a round are references that lead to names that were there. -/
theorem mem_dependent_iff {entry : String × List String} :
    entry ∈ references.dependent ↔
      entry ∈ references ∧ ∃ name ∈ entry.2, name ∈ references.map Prod.fst := by
  rw [dependent, List.mem_filter, List.any_eq_true]
  simp only [List.contains_iff_mem]

/-- **References into a cycle are left** after any number of rounds. -/
theorem mem_dependentAfter {entry : String × List String} (hentry : entry ∈ references)
    {name : String} (hname : name ∈ entry.2) (hcycle : TransGen (Leads references) name name)
    (rounds : Nat) : entry ∈ dependentAfter rounds references := by
  -- The names on the cycle are there as long as all references into cycles are.
  suffices key : ∀ current : References,
      (∀ entry ∈ references, (∃ name ∈ entry.2, TransGen (Leads references) name name) →
        entry ∈ current) → entry ∈ dependentAfter rounds current from
    key references fun _ hmem _ => hmem
  induction rounds with
  | zero => exact fun current hcurrent => hcurrent entry hentry ⟨name, hname, hcycle⟩
  | succ rounds ih =>
      refine fun current hcurrent => ih current.dependent fun entry hmem hleads => ?_
      refine mem_dependent_iff.mpr ⟨hcurrent entry hmem hleads, ?_⟩
      obtain ⟨name, hname, hcycle⟩ := hleads
      obtain ⟨next, ⟨other, hother, rfl, hnext⟩, hback⟩ := TransGen.head'_iff.mp hcycle
      have hagain : TransGen (Leads references) next next :=
        TransGen.tail' hback ⟨other, hother, rfl, hnext⟩
      exact ⟨other.1, hname,
        List.mem_map_of_mem (hcurrent other hother ⟨next, hnext, hagain⟩)⟩

/-- Where every reference leads to a name that is there, some name leads back to itself. -/
theorem exists_cycle (hne : references ≠ [])
    (hleads : ∀ entry ∈ references, ∃ name ∈ entry.2, name ∈ references.map Prod.fst) :
    ∃ name, TransGen (Leads references) name name := by
  by_contra hacyclic
  push Not at hacyclic
  let Node : Type := { name // name ∈ references.map Prod.fst }
  -- Without cycles, the names there are cannot lead on forever.
  let Below : Node → Node → Prop := fun second first =>
    TransGen (Leads references) first.1 second.1
  have htrans : IsTrans Node Below := ⟨fun _ _ _ hfirst hsecond => hsecond.trans hfirst⟩
  have hirrefl : Std.Irrefl Below := ⟨fun node => hacyclic node.1⟩
  have hfinite : Finite Node := (references.map Prod.fst).finite_toSet.to_subtype
  have hwf : WellFounded Below := Finite.wellFounded_of_trans_of_irrefl Below
  have hnone : ∀ node : Node, False := fun node => by
    induction node using hwf.induction with
    | _ last ih =>
        obtain ⟨entry, hentry, hname⟩ := List.mem_map.mp last.2
        obtain ⟨next, hnext, hthere⟩ := hleads entry hentry
        exact ih ⟨next, hthere⟩ (.single ⟨entry, hentry, hname, hnext⟩)
  obtain ⟨entry, hentry⟩ := List.exists_mem_of_ne_nil references hne
  exact hnone ⟨entry.1, List.mem_map_of_mem hentry⟩

/-- Fewer references lead to fewer names. -/
theorem Leads.mono {others : References} (hsubset : ∀ entry ∈ others, entry ∈ references)
    {first second : String} (h : Leads others first second) : Leads references first second := by
  obtain ⟨entry, hentry, hfirst, hsecond⟩ := h
  exact ⟨entry, hsubset entry hentry, hfirst, hsecond⟩

/-- **Without cycles, each round leaves something out.** -/
theorem dependentAfter_eq_nil (h : ∀ name, ¬TransGen (Leads references) name name)
    {rounds : Nat} (hrounds : references.length ≤ rounds) :
    dependentAfter rounds references = [] := by
  induction rounds generalizing references with
  | zero => exact List.length_eq_zero_iff.mp (Nat.le_zero.mp hrounds)
  | succ rounds ih =>
      have hsubset : ∀ entry ∈ references.dependent, entry ∈ references := fun entry hentry =>
        (mem_dependent_iff.mp hentry).1
      refine ih (fun name hcycle => h name
        (TransGen.mono (fun _ _ => Leads.mono hsubset) _ _ hcycle)) ?_
      by_cases hne : references = []
      · subst hne
        exact Nat.zero_le _
      · refine Nat.le_of_lt_succ (Nat.lt_of_lt_of_le ?_ hrounds)
        -- Otherwise every reference would lead to a name that is there.
        refine Nat.lt_of_le_of_ne (List.length_filter_le _ _) fun heq => ?_
        obtain ⟨name, hcycle⟩ := exists_cycle hne fun entry hentry => by
          have hall : references.dependent = references := List.filter_sublist.eq_of_length heq
          rw [← hall] at hentry
          exact (mem_dependent_iff.mp hentry).2
        exact h name hcycle

/-- **References are grounded exactly when no name leads back to itself.** -/
theorem isGrounded_iff :
    references.isGrounded = true ↔ ∀ name, ¬TransGen (Leads references) name name := by
  rw [isGrounded, List.isEmpty_iff]
  constructor
  · intro hempty name hcycle
    obtain ⟨next, ⟨entry, hentry, rfl, hnext⟩, hback⟩ := TransGen.head'_iff.mp hcycle
    have hagain : TransGen (Leads references) next next :=
      TransGen.tail' hback ⟨entry, hentry, rfl, hnext⟩
    have hleft := mem_dependentAfter hentry hnext hagain references.length
    rw [hempty] at hleft
    exact List.not_mem_nil hleft
  · exact fun h => dependentAfter_eq_nil h (Nat.le_refl _)

end References

end ClientSdk
