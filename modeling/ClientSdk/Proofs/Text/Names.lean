import ClientSdk.Document.Token
import ClientSdk.Text.Plural

/-!
# Names in Lowercase and in the Plural

Augmentation makes the names of fields from the names of types: in lowercase, in the plural, and
with a suffix. What it makes of a name is a name again. It is reserved, as names are that begin
with two underscores, only where the name that it is made from is, or where a single underscore is
continued.

## Main definitions

* `IsReserved`, `IsStem`: names that are reserved, and names that are not however they continue.

## Main results

* `Token.isName_append`: a name may be continued.
* `Text.lower_eq_of_isName`: lowercasing a name changes letters one by one.
* `Text.isPluralOf_plural`: a plural is the front of its word and some letters.
* `Text.isName_lower`, `Text.isName_plural`: names stay names.
* `Text.isReserved_of_lower`, `Text.isReserved_of_plural`: names that are not reserved stay so.
* `isStem_iff`: which names can be continued without becoming reserved.
-/

namespace ClientSdk

open Token

/-! ### Names -/

namespace Token

/-- A name is a character that begins names and others that continue them. -/
theorem isName_iff {name : String} : isName name = true ↔ ∃ c cs, name.toList = c :: cs ∧
    isNameStart c = true ∧ cs.all isNameContinue = true := by
  rw [isName]
  cases name.toList with
  | nil => simp
  | cons c cs =>
      rw [Bool.and_eq_true]
      constructor
      · exact fun h => ⟨c, cs, rfl, h⟩
      · rintro ⟨_, _, ⟨⟩, h⟩
        exact h

/-- What begins a name may continue one. -/
theorem isNameContinue_of_isNameStart {c : Char} (h : isNameStart c = true) :
    isNameContinue c = true := by
  rw [isNameContinue, h, Bool.true_or]

/-- The characters of a name may continue names. -/
theorem all_isNameContinue {name : String} (h : isName name = true) :
    name.toList.all isNameContinue = true := by
  obtain ⟨c, cs, hname, hstart, hcontinue⟩ := isName_iff.mp h
  rw [hname, List.all_cons, isNameContinue_of_isNameStart hstart, hcontinue, Bool.and_self]

/-- A name is continued by characters that may continue it. -/
theorem isName_append {name suffix : String} (h : isName name = true)
    (hsuffix : suffix.toList.all isNameContinue = true) : isName (name ++ suffix) = true := by
  obtain ⟨c, cs, hname, hstart, hcontinue⟩ := isName_iff.mp h
  refine isName_iff.mpr ⟨c, cs ++ suffix.toList, ?_, hstart, ?_⟩
  · rw [String.toList_append, hname, List.cons_append]
  · rw [List.all_append, hcontinue, hsuffix, Bool.and_self]

/-- A letter begins a name. -/
theorem isNameStart_of_isAlpha {c : Char} (h : c.isAlpha = true) : isNameStart c = true := by
  rw [isNameStart, h, Bool.true_or]

/-- What continues names is one of the first 128 characters, so it can be found among them. -/
theorem forall_of_isNameContinue {P : Char → Prop} (h : ∀ n < 128, P (Char.ofNat n)) {c : Char}
    (hc : isNameContinue c = true) : P c := by
  have hascii : c.toNat < 128 := by
    delta isNameContinue isNameStart Char.isAlpha Char.isUpper Char.isLower Char.isDigit at hc
    simp only [Bool.or_eq_true, Bool.and_eq_true, decide_eq_true_eq, beq_iff_eq,
      UInt32.le_iff_toNat_le, ge_iff_le] at hc
    rcases hc with ((⟨-, hupper⟩ | ⟨-, hlower⟩) | rfl) | ⟨-, hdigit⟩
    · exact Nat.lt_of_le_of_lt hupper (by decide)
    · exact Nat.lt_of_le_of_lt hlower (by decide)
    · decide
    · exact Nat.lt_of_le_of_lt hdigit (by decide)
  rw [← Char.ofNat_toNat c]
  exact h c.toNat hascii

end Token

/-! ### Reserved names -/

/-- The name begins with two underscores. -/
def IsReserved (name : String) : Prop := ['_', '_'] <+: name.toList

namespace Text

/-! ### Lowercase -/

/-- The lowercase form of a character of a name is one character, which stands where that one
does. -/
theorem lowerChar_of_isNameContinue {c : Char} (h : isNameContinue c = true) :
    (c ≠ 'Σ' ∧ lowerChar c = [c.toLower]) ∧ isNameContinue c.toLower = true ∧
      (isNameStart c = true → isNameStart c.toLower = true) ∧ (c.toLower = '_' → c = '_') :=
  forall_of_isNameContinue (P := fun c =>
    isNameContinue c = true → (c ≠ 'Σ' ∧ lowerChar c = [c.toLower]) ∧
      isNameContinue c.toLower = true ∧
      (isNameStart c = true → isNameStart c.toLower = true) ∧ (c.toLower = '_' → c = '_'))
    (by decide) h h

/-- Characters of names are put in lowercase one by one, whatever stands before them. -/
theorem lowerFrom_eq_map {cs : List Char} (h : cs.all isNameContinue = true)
    (before : List Char) : lowerFrom before cs = cs.map Char.toLower := by
  induction cs generalizing before with
  | nil => rfl
  | cons c cs ih =>
      rw [List.all_cons, Bool.and_eq_true] at h
      obtain ⟨⟨hsigma, hlower⟩, -⟩ := lowerChar_of_isNameContinue h.1
      rw [lowerFrom, beq_eq_false_iff_ne.mpr hsigma, if_neg Bool.false_ne_true, hlower, ih h.2]
      rfl

/-- **A name is put in lowercase character by character.** -/
theorem lower_eq_of_isName {name : String} (h : isName name = true) :
    (lower name).toList = name.toList.map Char.toLower := by
  rw [lower, String.toList_ofList]
  exact lowerFrom_eq_map (all_isNameContinue h) []

/-- A name in lowercase is a name. -/
theorem isName_lower {name : String} (h : isName name = true) : isName (lower name) = true := by
  obtain ⟨c, cs, hname, hstart, hcontinue⟩ := isName_iff.mp h
  refine isName_iff.mpr ⟨c.toLower, cs.map Char.toLower, ?_, ?_, ?_⟩
  · rw [lower_eq_of_isName h, hname, List.map_cons]
  · exact (lowerChar_of_isNameContinue (isNameContinue_of_isNameStart hstart)).2.2.1 hstart
  · rw [List.all_eq_true] at hcontinue ⊢
    intro c' hc'
    obtain ⟨c, hc, rfl⟩ := List.mem_map.mp hc'
    exact (lowerChar_of_isNameContinue (hcontinue c hc)).2.1

/-- A name whose lowercase begins with two underscores begins with them itself. -/
theorem isReserved_of_lower {name : String} (h : isName name = true)
    (hlower : IsReserved (lower name)) : IsReserved name := by
  have hall := all_isNameContinue h
  rw [IsReserved, lower_eq_of_isName h] at hlower
  rw [IsReserved]
  match hchars : name.toList with
  | [] => simp [hchars] at hlower
  | [_] => simp [hchars] at hlower
  | first :: second :: rest =>
      simp only [hchars, List.map_cons, List.cons_prefix_cons, List.nil_prefix,
        and_true] at hlower
      simp only [hchars, List.all_cons, Bool.and_eq_true] at hall
      obtain rfl := (lowerChar_of_isNameContinue hall.1).2.2.2 hlower.1.symm
      obtain rfl := (lowerChar_of_isNameContinue hall.2.1).2.2.2 hlower.2.symm
      simp

/-! ### Plurals -/

/-- The plural is the front of the word and some letters, or the word itself. -/
def IsPluralOf (word plural : String) : Prop :=
  ∃ stem suffix, plural.toList = stem ++ suffix ∧ stem <+: word.toList ∧
    suffix.all Char.isAlpha = true ∧ (suffix = [] → stem = word.toList)

/-- A word with letters after it. -/
theorem isPluralOf_append (word : String) {suffix : String}
    (hsuffix : suffix.toList.all Char.isAlpha = true) : IsPluralOf word (word ++ suffix) :=
  ⟨word.toList, suffix.toList, String.toList_append, List.prefix_rfl, hsuffix, fun _ => rfl⟩

/-- The front of a word with letters after it. -/
theorem isPluralOf_ofList_append {word : String} {stem : List Char} (hstem : stem <+: word.toList)
    {suffix : String} (hsuffix : suffix.toList.all Char.isAlpha = true)
    (hne : suffix.toList ≠ []) : IsPluralOf word (String.ofList stem ++ suffix) :=
  ⟨stem, suffix.toList, by rw [String.toList_append, String.toList_ofList], hstem, hsuffix,
    fun hnil => absurd hnil hne⟩

/-- What is left without an ending is the front. -/
theorem prefix_of_dropEnding? {word suffix stem : List Char}
    (h : dropEnding? word suffix = some stem) : stem <+: word := by
  rw [dropEnding?] at h
  split at h
  · obtain rfl := Option.some.inj h
    exact List.take_prefix _ _
  · cases h

theorem isPluralOf_pluralByEnding (word : String) : IsPluralOf word (pluralByEnding word) := by
  rw [pluralByEnding]
  dsimp only
  split
  · rename_i stem hstem
    exact isPluralOf_ofList_append (prefix_of_dropEnding? hstem) (by decide) (by decide)
  split
  · exact isPluralOf_append word (by decide)
  split
  · rename_i stem hstem
    have hstem := (Option.filter_eq_some_iff.mp hstem).1
    exact isPluralOf_ofList_append (prefix_of_dropEnding? hstem) (by decide) (by decide)
  split
  · refine isPluralOf_ofList_append ?_ (by decide) (by decide)
    cases hfe : dropEnding? word.toList ['f', 'e'] with
    | some stem => exact prefix_of_dropEnding? hfe
    | none =>
        cases hf : dropEnding? word.toList ['f'] with
        | some stem => exact prefix_of_dropEnding? hf
        | none => exact List.prefix_rfl
  split
  · exact isPluralOf_append word (by decide)
  · exact isPluralOf_append word (by decide)

/-- **A plural is the front of its word and some letters.** -/
theorem isPluralOf_plural {word : String} (h : word ≠ "") : IsPluralOf word (plural word) := by
  have hirregular : ∀ entry ∈ irregularPlurals, entry.2.toList.all Char.isAlpha = true ∧
      entry.2.toList ≠ [] := by decide
  rw [plural, if_neg h]
  split
  · exact ⟨word.toList, [], (List.append_nil _).symm, List.prefix_rfl, rfl, fun _ => rfl⟩
  · cases hlookup : irregularPlurals.lookup word with
    | none => exact isPluralOf_pluralByEnding word
    | some irregular =>
        obtain ⟨before, after, heq, -⟩ := List.lookup_eq_some_iff.mp hlookup
        obtain ⟨hletters, hne⟩ := hirregular (word, irregular) (by simp [heq])
        exact ⟨[], irregular.toList, rfl, List.nil_prefix, hletters, fun hnil => absurd hnil hne⟩

/-- The plural of a name is a name. -/
theorem isName_plural {word : String} (h : isName word = true) : isName (plural word) = true := by
  obtain ⟨c, cs, hword, hstart, hcontinue⟩ := isName_iff.mp h
  have hne : word ≠ "" := by
    rintro rfl
    cases hword
  obtain ⟨stem, suffix, hplural, hstem, hsuffix, hwhole⟩ := isPluralOf_plural hne
  have hletters : suffix.all isNameContinue = true := List.all_eq_true.mpr fun letter hletter =>
    isNameContinue_of_isNameStart
      (isNameStart_of_isAlpha (List.all_eq_true.mp hsuffix letter hletter))
  rw [isName_iff, hplural]
  cases stem with
  | nil =>
      cases suffix with
      | nil => cases (hwhole rfl).trans hword
      | cons letter letters =>
          rw [List.all_cons, Bool.and_eq_true] at hsuffix hletters
          exact ⟨letter, letters, rfl, isNameStart_of_isAlpha hsuffix.1, hletters.2⟩
  | cons first others =>
      rw [hword, List.cons_prefix_cons] at hstem
      obtain ⟨rfl, hothers⟩ := hstem
      refine ⟨first, others ++ suffix, rfl, hstart, ?_⟩
      rw [List.all_append, hletters, Bool.and_true, List.all_eq_true]
      exact fun c hc => List.all_eq_true.mp hcontinue c (hothers.subset hc)

/-- A word whose plural begins with two underscores begins with them itself. -/
theorem isReserved_of_plural {word : String} (h : word ≠ "") (hplural : IsReserved (plural word)) :
    IsReserved word := by
  obtain ⟨stem, suffix, heq, hstem, hsuffix, -⟩ := isPluralOf_plural h
  rw [IsReserved, heq] at hplural
  -- The letters after the front are no underscores.
  have hletter : ∀ rest, suffix ≠ '_' :: rest := by
    rintro rest rfl
    simp at hsuffix
  match stem with
  | [] =>
      obtain ⟨rest, hrest⟩ := hplural
      exact absurd hrest.symm (hletter _)
  | [_] =>
      rw [List.singleton_append, List.cons_prefix_cons] at hplural
      obtain ⟨rest, hrest⟩ := hplural.2
      exact absurd hrest.symm (hletter _)
  | first :: second :: rest =>
      simp only [List.cons_append, List.cons_prefix_cons, List.nil_prefix, and_true] at hplural
      obtain ⟨rfl, rfl⟩ := hplural
      exact List.IsPrefix.trans (by simp) hstem

/-- Only an underscore has an underscore as its plural. -/
theorem eq_of_plural_eq {word : String} (h : word ≠ "") (hplural : plural word = "_") :
    word = "_" := by
  obtain ⟨stem, suffix, heq, -, hsuffix, hwhole⟩ := isPluralOf_plural h
  rw [hplural] at heq
  -- The last character is an underscore, so no letters come after the front.
  have hnil : suffix = [] := by
    rcases List.eq_nil_or_concat suffix with hnil | ⟨front, last, rfl⟩
    · exact hnil
    · have hlast : '_' = last := by simpa using congrArg List.getLast? heq
      rw [← hlast] at hsuffix
      simp at hsuffix
  rw [hnil, List.append_nil, hwhole hnil] at heq
  exact String.toList_inj.mp heq.symm

/-- Only an underscore is an underscore in lowercase. -/
theorem eq_of_lower_eq {name : String} (h : isName name = true) (hlower : lower name = "_") :
    name = "_" := by
  have hchars := lower_eq_of_isName h
  rw [hlower] at hchars
  obtain ⟨c, hname⟩ : ∃ c, name.toList = [c] := by
    rw [← List.length_eq_one_iff, ← List.length_map Char.toLower, ← hchars]
    rfl
  rw [hname] at hchars
  have hc : '_' = c.toLower := (List.cons.inj hchars).1
  have hcontinue : isNameContinue c = true := by
    have hall := all_isNameContinue h
    rw [hname] at hall
    simpa using hall
  obtain rfl := (lowerChar_of_isNameContinue hcontinue).2.2.2 hc.symm
  exact String.toList_inj.mp hname

end Text

/-! ### Names to continue -/

/-- However it is continued, the name is not reserved. -/
def IsStem (name : String) : Prop := ∀ suffix, ¬IsReserved (name ++ suffix)

/-- **A name can be continued** if it is not reserved, and no underscore. -/
theorem isStem_iff {name : String} (h : isName name = true) :
    IsStem name ↔ ¬IsReserved name ∧ name ≠ "_" := by
  obtain ⟨c, cs, hname, -⟩ := isName_iff.mp h
  constructor
  · intro hstem
    refine ⟨?_, ?_⟩
    · have hself := hstem ""
      rwa [String.append_empty] at hself
    · rintro rfl
      exact hstem "_" (by rw [IsReserved]; decide)
  · rintro ⟨hfree, hne⟩ suffix hreserved
    rw [IsReserved, String.toList_append, hname] at hreserved
    rw [IsReserved, hname] at hfree
    cases cs with
    | nil =>
        -- Only an underscore is completed to two of them.
        rw [List.cons_append, List.cons_prefix_cons] at hreserved
        obtain ⟨rfl, -⟩ := hreserved
        exact hne (String.toList_inj.mp hname)
    | cons second rest =>
        simp only [List.cons_append, List.cons_prefix_cons, List.nil_prefix,
          and_true] at hreserved hfree
        exact hfree hreserved

namespace IsStem

variable {name : String} (h : IsStem name) (hname : isName name = true)

include h

/-- The name itself is not reserved. -/
theorem not_isReserved : ¬IsReserved name := by
  have hself := h ""
  rwa [String.append_empty] at hself

include hname

theorem lower : IsStem (Text.lower name) := by
  obtain ⟨hfree, hne⟩ := (isStem_iff hname).mp h
  exact (isStem_iff (Text.isName_lower hname)).mpr
    ⟨fun hlower => hfree (Text.isReserved_of_lower hname hlower),
      fun hlower => hne (Text.eq_of_lower_eq hname hlower)⟩

theorem plural : IsStem (Text.plural name) := by
  obtain ⟨hfree, hne⟩ := (isStem_iff hname).mp h
  have hnonempty : name ≠ "" := by
    rintro rfl
    cases hname
  exact (isStem_iff (Text.isName_plural hname)).mpr
    ⟨fun hplural => hfree (Text.isReserved_of_plural hnonempty hplural),
      fun hplural => hne (Text.eq_of_plural_eq hnonempty hplural)⟩

end IsStem

end ClientSdk
