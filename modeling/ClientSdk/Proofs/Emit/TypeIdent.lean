import ClientSdk.Proofs.Emit.Ident

/-!
# Identifiers of Types

A value always has an identifier: the snake case of a name is a name. A type need not have one.
Pascal case drops the underscores of a name, and with them what lets a name go on with a digit, or
be made of nothing else. So the name of a type becomes an identifier exactly when its first
character that is no underscore is a letter.

## Main definitions

* `Text.IsLetterLed`: a name begins with a letter, underscores left aside.

## Main results

* `Ident.exists_ofSpelling_iff`: a spelling becomes an identifier when its characters make one up.
* `Ident.exists_ofTypeName_iff`: the names of types that become identifiers.
-/

namespace ClientSdk

open Token

namespace Text

/-- The first character that is no underscore is a letter. -/
def IsLetterLed (name : String) : Prop := (name.toList.find? (· != '_')).any Char.isAlpha = true

instance (name : String) : Decidable (IsLetterLed name) := inferInstanceAs (Decidable (_ = true))

/-- A character that is in lowercase a character of names is one itself. -/
theorem isNameContinue_of_toLower {c : Char} (h : isNameContinue c.toLower = true) :
    isNameContinue c = true := by
  by_cases hupper : c.isUpper = true
  · have halpha : c.isAlpha = true := (Bool.or_eq_true _ _).mpr (Or.inl hupper)
    rw [isNameContinue, isNameStart, halpha]
    rfl
  · have hsame : c.toLower = c := dif_neg fun hrange => hupper (decide_eq_true hrange)
    rwa [hsame] at h

/-- The case makes no letter of a character of names, and takes none away. -/
theorem isAlpha_toLower {c : Char} (h : isNameContinue c = true) :
    c.toLower.isAlpha = c.isAlpha :=
  forall_of_isNameContinue (P := fun c => c.toLower.isAlpha = c.isAlpha) (by decide) h

/-- A character of a name that pascal case keeps. -/
theorem isNameContinue_of_mem_filter {name : String} (h : name.toList.all isNameContinue = true)
    {c : Char} (hc : c ∈ name.toList.filter (· != '_')) : isNameContinue c = true ∧ c ≠ '_' := by
  obtain ⟨hmem, hne⟩ := List.mem_filter.mp hc
  exact ⟨List.all_eq_true.mp h c hmem, bne_iff_ne.mp hne⟩

/-- **Pascal case makes characters of names** of characters of names. -/
theorem isNameContinue_of_mem_pascalCase {name : String}
    (h : name.toList.all isNameContinue = true) :
    ∀ c ∈ (pascalCase name).toList, isNameContinue c = true := by
  intro c hc
  have hlower := List.mem_map_of_mem (f := Char.toLower) hc
  rw [map_toLower_pascalCase h] at hlower
  obtain ⟨d, hd, heq⟩ := List.mem_map.mp hlower
  refine isNameContinue_of_toLower ?_
  rw [← heq]
  exact (lowerChar_of_isNameContinue (isNameContinue_of_mem_filter h hd).1).2.1

end Text

namespace Ident

/-- A spelling becomes an identifier when its characters make one up: keywords do. -/
theorem exists_ofSpelling_iff {text : String} :
    (∃ ident, ofSpelling text = .ok ident) ↔ isIdentifier text.toList = true := by
  have hpath : ∀ name ∈ pathKeywords, isIdentifier name.toList = true := by decide
  have hkeyword : ∀ name ∈ keywords, isIdentifier name.toList = true := by decide
  constructor
  · rintro ⟨ident, h⟩
    rcases ofSpelling_eq_ok_iff.mp h with ⟨hmem, -⟩ | ⟨hmem, -⟩ | ⟨-, hidentifier, -⟩
    · exact hpath text hmem
    · exact hkeyword text hmem
    · exact hidentifier
  · intro h
    rw [ofSpelling, if_pos h]
    split_ifs
    all_goals exact ⟨_, rfl⟩

/-- Characters of names are an identifier when the first of them begins names. -/
theorem isIdentifier_cons_iff {c : Char} {cs : List Char} (hc : isNameContinue c = true)
    (hcs : ∀ d ∈ cs, isNameContinue d = true) :
    isIdentifier (c :: cs) = true ↔ isNameStart c = true := by
  have hstart : ∀ c, isNameContinue c = true →
      ((c == '_' || Text.isIdentifierStart c) = isNameStart c) := fun c hc =>
    forall_of_isNameContinue (P := fun c => (c == '_' || Text.isIdentifierStart c) =
      isNameStart c) (by decide) hc
  have hcontinue : cs.all Text.isIdentifierContinue = true :=
    List.all_eq_true.mpr fun d hd => Text.isIdentifierContinue_of_isNameContinue (hcs d hd)
  rw [isIdentifier, hcontinue, Bool.and_true, hstart c hc]

/-- **A type has an identifier** when its name begins with a letter, underscores left aside. -/
theorem exists_ofTypeName_iff {name : String} (h : isName name = true) :
    (∃ ident, ofTypeName name = .ok ident) ↔ Text.IsLetterLed name := by
  have hall := all_isNameContinue h
  have hletters := Text.map_toLower_pascalCase hall
  have hspelled := Text.isNameContinue_of_mem_pascalCase hall
  rw [ofTypeName, exists_ofSpelling_iff, Text.IsLetterLed, ← List.head?_filter]
  cases hkept : name.toList.filter (· != '_') with
  | nil =>
      rw [hkept, List.map_nil, List.map_eq_nil_iff] at hletters
      rw [hletters]
      decide
  | cons c cs =>
      rw [hkept] at hletters
      obtain ⟨first, rest, hspelling, hfirst, -⟩ := List.map_eq_cons_iff.mp hletters
      have hmem : c ∈ name.toList.filter (· != '_') := hkept ▸ List.mem_cons_self
      obtain ⟨hc, hne⟩ := Text.isNameContinue_of_mem_filter hall hmem
      rw [hspelling] at hspelled ⊢
      obtain ⟨hstart, hothers⟩ := List.forall_mem_cons.mp hspelled
      -- The first character is in lowercase that of the name, so it is no underscore either.
      have hplain : first ≠ '_' := by
        rintro rfl
        exact hne ((Text.lowerChar_of_isNameContinue hc).2.2.2 hfirst.symm)
      have halpha : first.isAlpha = c.isAlpha := by
        rw [← Text.isAlpha_toLower hstart, hfirst, Text.isAlpha_toLower hc]
      rw [isIdentifier_cons_iff hstart hothers, isNameStart, beq_eq_false_iff_ne.mpr hplain,
        Bool.or_false, halpha]
      rfl

end Ident

end ClientSdk
