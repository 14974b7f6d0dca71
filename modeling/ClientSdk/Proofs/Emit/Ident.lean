import ClientSdk.Emit.Ident
import ClientSdk.Proofs.Fallible
import ClientSdk.Proofs.Text.Words
import Mathlib.Data.List.Nodup

/-!
# Identifiers and Their Spellings

A spelling becomes an identifier in one of three ways, and its letters tell in which: only keywords
are raw. So identifiers can be told apart by their letters.

## Main results

* `Ident.ofSpelling_eq_ok_iff`: the three ways.
* `Ident.isIdentifier_of_ofSpelling`: the letters of an identifier make one up.
* `Ident.eq_of_text_eq`: identifiers with the same letters are the same.
* `Ident.text_eq_iff`: which spellings have the letters of a given identifier.
* `Ident.exists_ofValueName`: names of values become identifiers.
-/

namespace ClientSdk

/-- What begins an identifier may also go on with it. -/
theorem Text.isIdentifierContinue_of_isIdentifierStart {c : Char}
    (h : isIdentifierStart c = true) : isIdentifierContinue c = true := by
  rw [isIdentifierStart] at h
  rw [isIdentifierContinue]
  split at h
  · rename_i hascii
    rw [if_pos hascii, Char.isAlphanum, h, Bool.true_or, Bool.true_or]
  · rename_i hascii
    rw [if_neg hascii, h, Bool.true_or]

/-- What continues names may continue identifiers. -/
theorem Text.isIdentifierContinue_of_isNameContinue {c : Char}
    (h : Token.isNameContinue c = true) : isIdentifierContinue c = true :=
  Token.forall_of_isNameContinue (P := fun c => Token.isNameContinue c = true →
    isIdentifierContinue c = true) (by decide) h h

/-- What begins names may begin identifiers. -/
theorem Text.isIdentifierStart_of_isNameStart {c : Char} (h : Token.isNameStart c = true) :
    c = '_' ∨ isIdentifierStart c = true := by
  have hall : ∀ c, Token.isNameContinue c = true → Token.isNameStart c = true →
      c = '_' ∨ isIdentifierStart c = true := fun c hc =>
    Token.forall_of_isNameContinue (P := fun c => Token.isNameStart c = true →
      c = '_' ∨ isIdentifierStart c = true) (by decide) hc
  exact hall c (Token.isNameContinue_of_isNameStart h) h

namespace Ident

variable {text text' : String} {ident ident' : Ident}

/-- **The three ways to make an identifier**: with an underscore, as a raw one, or as it is. -/
theorem ofSpelling_eq_ok_iff :
    ofSpelling text = .ok ident ↔
      (text ∈ pathKeywords ∧ ident = { text := text ++ "_" }) ∨
      (text ∈ keywords ∧ ident = { text := text, raw := true }) ∨
      ((text ∉ pathKeywords ∧ text ∉ keywords) ∧ isIdentifier text.toList = true ∧
        ident = { text := text }) := by
  have hdisjoint : ∀ name ∈ pathKeywords, name ∉ keywords := by decide
  rw [ofSpelling]
  constructor
  · intro h
    split at h
    · rename_i hpath
      exact Or.inl ⟨hpath, (Except.ok.inj h).symm⟩
    split at h
    · rename_i hkeyword
      exact Or.inr (Or.inl ⟨hkeyword, (Except.ok.inj h).symm⟩)
    split at h
    · rename_i hpath hkeyword hidentifier
      exact Or.inr (Or.inr ⟨⟨hpath, hkeyword⟩, hidentifier, (Except.ok.inj h).symm⟩)
    · cases h
  · rintro (⟨hpath, rfl⟩ | ⟨hkeyword, rfl⟩ | ⟨⟨hpath, hkeyword⟩, hidentifier, rfl⟩)
    · rw [if_pos hpath]
    · rw [if_neg fun hpath => hdisjoint text hpath hkeyword, if_pos hkeyword]
    · rw [if_neg hpath, if_neg hkeyword, if_pos hidentifier]

/-- The letters of an identifier make one up. -/
theorem isIdentifier_of_ofSpelling (h : ofSpelling text = .ok ident) :
    isIdentifier ident.text.toList = true := by
  have hpath : ∀ name ∈ pathKeywords, isIdentifier (name ++ "_").toList = true := by decide
  have hkeyword : ∀ name ∈ keywords, isIdentifier name.toList = true := by decide
  rcases ofSpelling_eq_ok_iff.mp h with ⟨hmem, rfl⟩ | ⟨hmem, rfl⟩ | ⟨-, hidentifier, rfl⟩
  · exact hpath text hmem
  · exact hkeyword text hmem
  · exact hidentifier

/-- The letters of an identifier are of the kind that identifiers go on with. -/
theorem notMem_of_isIdentifier {cs : List Char} (h : isIdentifier cs = true) {c : Char}
    (hc : Text.isIdentifierContinue c = false) : c ∉ cs := by
  have hunderscore : Text.isIdentifierContinue '_' = true := by decide
  cases cs with
  | nil => exact List.not_mem_nil
  | cons first rest =>
      rw [isIdentifier, Bool.and_eq_true, Bool.or_eq_true, beq_iff_eq, List.all_eq_true] at h
      intro hmem
      rcases List.mem_cons.mp hmem with rfl | hrest
      · rcases h.1 with rfl | hstart
        · cases hc.symm.trans hunderscore
        · cases hc.symm.trans (Text.isIdentifierContinue_of_isIdentifierStart hstart)
      · cases hc.symm.trans (h.2 c hrest)

/-- An identifier is raw when it is a keyword. -/
theorem raw_eq_of_ofSpelling (h : ofSpelling text = .ok ident) :
    ident.raw = decide (ident.text ∈ keywords) := by
  have hpath : ∀ name ∈ pathKeywords, name ++ "_" ∉ keywords := by decide
  rcases ofSpelling_eq_ok_iff.mp h with ⟨hmem, rfl⟩ | ⟨hmem, rfl⟩ | ⟨⟨-, hfree⟩, -, rfl⟩
  · exact (decide_eq_false (hpath text hmem)).symm
  · exact (decide_eq_true hmem).symm
  · exact (decide_eq_false hfree).symm

/-- **Identifiers with the same letters are the same.** -/
theorem eq_of_text_eq (h : ofSpelling text = .ok ident) (h' : ofSpelling text' = .ok ident')
    (htext : ident.text = ident'.text) : ident = ident' := by
  have hraw := raw_eq_of_ofSpelling h
  rw [htext, ← raw_eq_of_ofSpelling h'] at hraw
  cases ident with
  | mk text raw =>
      cases htext
      cases hraw
      rfl

/-- Distinct identifiers have distinct letters. -/
theorem nodup_map_text_iff {idents : List Ident}
    (h : ∀ ident ∈ idents, ∃ text, ofSpelling text = .ok ident) :
    (idents.map (·.text)).Nodup ↔ idents.Nodup := by
  refine ⟨List.Nodup.of_map _, fun hnodup => hnodup.map_on ?_⟩
  intro ident hident ident' hident' htext
  obtain ⟨_, htext₁⟩ := h ident hident
  obtain ⟨_, htext₂⟩ := h ident' hident'
  exact eq_of_text_eq htext₁ htext₂ htext

/-- An identifier is spelled by its letters, unless that would make a keyword of paths. -/
theorem text_eq_of_notMem (h : ofSpelling text = .ok ident) (htext : text ∉ pathKeywords) :
    ident.text = text := by
  rcases ofSpelling_eq_ok_iff.mp h with ⟨hmem, -⟩ | ⟨-, rfl⟩ | ⟨-, -, rfl⟩
  · exact absurd hmem htext
  · rfl
  · rfl

/-- An identifier has letters that no keyword is or becomes exactly when it is spelled by them. -/
theorem text_eq_iff (h : ofSpelling text = .ok ident) {target : String}
    (htarget : ∀ keyword ∈ pathKeywords, keyword ≠ target ∧ keyword ++ "_" ≠ target) :
    ident.text = target ↔ text = target := by
  rcases ofSpelling_eq_ok_iff.mp h with ⟨hmem, rfl⟩ | ⟨-, rfl⟩ | ⟨-, -, rfl⟩
  · exact iff_of_false (htarget text hmem).2 (htarget text hmem).1
  · exact Iff.rfl
  · exact Iff.rfl

/-- A spelling that is a name becomes an identifier. -/
theorem exists_ofSpelling_of_isName (h : Token.isName text = true) :
    ∃ ident, ofSpelling text = .ok ident := by
  obtain ⟨c, cs, htext, hstart, hcontinue⟩ := Token.isName_iff.mp h
  have hidentifier : isIdentifier text.toList = true := by
    rw [List.all_eq_true] at hcontinue
    rw [htext, isIdentifier, Bool.and_eq_true, Bool.or_eq_true, beq_iff_eq, List.all_eq_true]
    exact ⟨Text.isIdentifierStart_of_isNameStart hstart, fun d hd =>
      Text.isIdentifierContinue_of_isNameContinue (hcontinue d hd)⟩
  rw [ofSpelling, if_pos hidentifier]
  split_ifs
  all_goals exact ⟨_, rfl⟩

/-- **A value has an identifier** when it has a name. -/
theorem exists_ofValueName {name : String} (h : Token.isName name = true) :
    ∃ ident, ofValueName name = .ok ident :=
  exists_ofSpelling_of_isName (Text.isName_snakeCase h)

/-- A spelling that makes no identifier is reported. -/
theorem eq_of_ofSpelling_eq_error {e : GenerationError} (h : ofSpelling text = .error e) :
    e = .notAnIdentifier text := by
  rw [ofSpelling] at h
  split at h
  · cases h
  split at h
  · cases h
  split at h
  · cases h
  · exact (Except.error.inj h).symm

end Ident

end ClientSdk
