import ClientSdk.Text.Plural

/-!
# Words That Are Their Own Plurals

A plural differs from its word but for the ten uncountable nouns, since every rule on endings puts
an ending in the place of another one, and no irregular noun is its own plural. So the two queries
of an object type have one name exactly where its name in lowercase is such a noun.

## Main results

* `plural_eq_self_iff`: the words that are their own plurals.
* `lower_eq_empty_iff`: only the empty text is empty in lowercase.
-/

namespace ClientSdk.Text

/-- What is left without an ending is the word before the ending. -/
theorem eq_append_of_dropEnding? {word suffix stem : List Char}
    (h : dropEnding? word suffix = some stem) : word = stem ++ suffix := by
  rw [dropEnding?] at h
  split at h
  · rename_i hsuffix
    obtain rfl := Option.some.inj h
    obtain ⟨front, rfl⟩ := List.isSuffixOf_iff_suffix.mp hsuffix
    rw [List.length_append, Nat.add_sub_cancel, List.take_left]
  · cases h

/-- Another ending makes another word. -/
theorem ofList_append_ne {word : String} {stem old : List Char} {new : String}
    (hword : word.toList = stem ++ old) (hne : new.toList ≠ old) :
    String.ofList stem ++ new ≠ word := by
  intro heq
  have hlist := congrArg String.toList heq
  rw [String.toList_append, String.toList_ofList, hword, List.append_cancel_left_eq] at hlist
  exact hne hlist

/-- A word with an ending after it is another word. -/
theorem append_ne_self (word : String) {ending : String} (hne : ending.toList ≠ []) :
    word ++ ending ≠ word := by
  intro heq
  have hlist := congrArg String.toList heq
  rw [String.toList_append, List.append_right_eq_self] at hlist
  exact hne hlist

/-- The rules on endings never leave a word as it is. -/
theorem pluralByEnding_ne_self (word : String) : pluralByEnding word ≠ word := by
  have hves : ∀ noun ∈ nounsInVes,
      String.ofList ((dropEnding? noun.toList ['f', 'e'] <|>
        dropEnding? noun.toList ['f']).getD noun.toList) ++ "ves" ≠ noun := by decide
  rw [pluralByEnding]
  dsimp only
  split
  · rename_i stem hstem
    exact ofList_append_ne (eq_append_of_dropEnding? hstem) (by decide)
  split
  · exact append_ne_self word (by decide)
  split
  · rename_i stem hstem
    have hstem := (Option.filter_eq_some_iff.mp hstem).1
    exact ofList_append_ne (eq_append_of_dropEnding? hstem) (by decide)
  split
  · rename_i hmem
    exact hves word hmem
  split
  · exact append_ne_self word (by decide)
  · exact append_ne_self word (by decide)

/-- **A word is its own plural** exactly when it is an uncountable noun, or empty. -/
theorem plural_eq_self_iff {word : String} :
    plural word = word ↔ word = "" ∨ word ∈ uncountableNouns := by
  have hirregular : ∀ entry ∈ irregularPlurals, entry.2 ≠ entry.1 := by decide
  rw [plural]
  split
  · rename_i hempty
    exact iff_of_true hempty.symm (.inl hempty)
  · rename_i hne
    split
    · rename_i hmem
      exact iff_of_true rfl (.inr hmem)
    · rename_i hcountable
      refine iff_of_false ?_ (not_or.mpr ⟨hne, hcountable⟩)
      cases hlookup : irregularPlurals.lookup word with
      | none => exact pluralByEnding_ne_self word
      | some irregular =>
          obtain ⟨before, after, heq, -⟩ := List.lookup_eq_some_iff.mp hlookup
          exact hirregular (word, irregular) (by simp [heq])

/-- No character disappears in lowercase. -/
theorem lowerChar_ne_nil (c : Char) : lowerChar c ≠ [] := by
  rw [lowerChar]
  split
  · exact List.cons_ne_nil _ _
  split
  · exact List.cons_ne_nil _ _
  · exact List.cons_ne_nil _ _

/-- Only the empty text is empty in lowercase. -/
theorem lower_eq_empty_iff {text : String} : lower text = "" ↔ text = "" := by
  constructor
  · intro h
    have hlist := congrArg String.toList h
    rw [lower, String.toList_ofList, lowerChars] at hlist
    cases hcs : text.toList with
    | nil => exact String.toList_eq_nil_iff.mp hcs
    | cons c cs =>
        rw [hcs, lowerFrom, String.toList_empty, List.append_eq_nil_iff] at hlist
        have himage := hlist.1
        split at himage
        · cases himage
        · exact absurd himage (lowerChar_ne_nil c)
  · rintro rfl
    rfl

end ClientSdk.Text
