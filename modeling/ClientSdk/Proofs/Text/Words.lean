import ClientSdk.Proofs.Text.Names
import ClientSdk.Text.Words

/-!
# Names in Snake Case and in Pascal Case

Snake case puts an underscore between the words of a name, and keeps those that it has, so it is a
name again. Pascal case drops the underscores of a name and keeps its letters up to case. So what is
put behind a name can still be told from its Pascal case, and is all of it only where the name has
nothing but underscores.

## Main results

* `flatten_splitWords`: words have all the letters but the separators, in order.
* `isName_snakeCase`: the snake case of a name is a name.
* `map_toLower_pascalCase`: Pascal case keeps letters up to case.
* `suffix_of_pascalCase_append`: what is put behind a name ends its Pascal case.
* `pascalCase_append_eq_iff`: what is put behind a name is all of its Pascal case only behind
  underscores.
-/

namespace ClientSdk

open Token

namespace Text

/-! ### Letters -/

/-- A table that begins after the first 128 characters holds no character of a name. -/
theorem RangeTable.contains_eq_false {table : RangeTable}
    (h : ∀ range ∈ table, 128 ≤ range.1) {c : Char} (hc : isNameContinue c = true) :
    table.contains c = false := by
  have hascii : c.toNat < 128 :=
    forall_of_isNameContinue (P := fun c => c.toNat < 128) (by decide) hc
  rw [contains, List.any_eq_false]
  intro range hrange
  have hlow := h range hrange
  simp only [Bool.and_eq_true, decide_eq_true_eq, not_and]
  omega

/-- No character of a name attaches to another. -/
theorem Letter.attaches_eq_false {prev c : Char} (hprev : isNameContinue prev = true)
    (hc : isNameContinue c = true) : attaches prev c = false := by
  have hmarks : ∀ range ∈ markRanges, 128 ≤ range.1 := by decide +kernel
  have hprepends : ∀ range ∈ prependRanges, 128 ≤ range.1 := by decide
  rw [attaches, RangeTable.contains_eq_false hmarks hc,
    RangeTable.contains_eq_false hprepends hprev, Bool.or_self, Bool.and_false]

/-- Every character of a name is a letter of its own. -/
theorem letters_eq_map {name : String} (h : name.toList.all isNameContinue = true) :
    letters name = name.toList.map fun c => [c] := by
  have hgroup : ∀ (cs : List Char) (c : Char), (c :: cs).all isNameContinue = true →
      Letter.group [c] cs = (c :: cs).map fun c => [c] := by
    intro cs
    -- The letter that is being read is always a single character.
    induction cs with
    | nil => exact fun _ _ => rfl
    | cons next cs ih =>
        intro c hall
        rw [List.all_cons, Bool.and_eq_true] at hall
        have hnext : isNameContinue next = true := by
          rw [List.all_cons, Bool.and_eq_true] at hall
          exact hall.2.1
        rw [Letter.group, Letter.attaches_eq_false hall.1 hnext, if_neg Bool.false_ne_true,
          ih next hall.2]
        rfl
  rw [letters]
  cases hname : name.toList with
  | nil => rfl
  | cons c cs =>
      rw [hname] at h
      exact hgroup cs c h

/-- The separators of a name are its underscores. -/
theorem Letter.isSeparator_singleton {c : Char} (h : isNameContinue c = true) :
    Letter.isSeparator [c] = (c == '_') :=
  forall_of_isNameContinue (P := fun c => isNameContinue c = true →
    Letter.isSeparator [c] = (c == '_')) (by decide) h h

/-! ### Words -/

/-- **Words have all the letters but the separators**, in order. -/
theorem flatten_splitWords (current ls : List Letter) :
    (splitWords current ls).flatten =
      current.reverse ++ ls.filter fun l => !l.isSeparator := by
  induction ls generalizing current with
  | nil => rw [splitWords, List.filter_nil, List.append_nil, List.flatten_singleton]
  | cons l rest ih =>
      rw [splitWords]
      split
      · rename_i hseparator
        rw [List.flatten_cons, ih, List.reverse_nil, List.nil_append, List.filter_cons, hseparator,
          Bool.not_true, if_neg Bool.false_ne_true]
      · rename_i hseparator
        have hfalse : l.isSeparator = false := Bool.eq_false_iff.mpr hseparator
        rw [List.filter_cons, hfalse, Bool.not_false, if_pos rfl]
        split
        · rw [List.flatten_cons, ih, List.reverse_nil, List.nil_append, List.reverse_cons,
            List.append_assoc, List.singleton_append]
        · rw [ih, List.reverse_cons, List.append_assoc, List.singleton_append]

/-- The letters of the words of a name are the characters that are no underscores. -/
theorem flatten_words {name : String} (h : name.toList.all isNameContinue = true) :
    (words name).flatten = (name.toList.filter (· != '_')).map fun c => [c] := by
  rw [words, letters_eq_map h, flatten_splitWords, List.reverse_nil, List.nil_append,
    List.filter_map]
  congr 1
  refine List.filter_congr fun c hc => ?_
  rw [List.all_eq_true] at h
  rw [Function.comp_apply, Letter.isSeparator_singleton (h c hc)]
  rfl

/-- The letters of a word of a name are characters of the name. -/
theorem exists_of_mem_words {name : String} (h : name.toList.all isNameContinue = true)
    {word : List Letter} (hword : word ∈ words name) :
    ∀ l ∈ word, ∃ c, isNameContinue c = true ∧ l = [c] := by
  intro l hl
  have hmem : l ∈ (words name).flatten := List.mem_flatten_of_mem hword hl
  rw [flatten_words h] at hmem
  obtain ⟨c, hc, rfl⟩ := List.mem_map.mp hmem
  exact ⟨c, List.all_eq_true.mp h c (List.mem_filter.mp hc).1, rfl⟩

/-- Letters that are characters of names are characters of names together. -/
theorem all_flatten {word : List Letter} (h : ∀ l ∈ word, ∃ c, isNameContinue c = true ∧ l = [c]) :
    word.flatten.all isNameContinue = true := by
  rw [List.all_eq_true]
  intro c hmem
  obtain ⟨l, hl, hmem⟩ := List.mem_flatten.mp hmem
  obtain ⟨c', hc', rfl⟩ := h l hl
  obtain rfl := List.mem_singleton.mp hmem
  exact hc'

/-! ### Snake case -/

/-- The characters of words in lowercase, with underscores between the words. -/
def lowered (ws : List (List Letter)) : List Char :=
  ['_'].intercalate (ws.map fun word => word.flatten.map Char.toLower)

/-- The snake case of a name consists of its words in lowercase. -/
theorem toList_snakeCase {name : String} (h : name.toList.all isNameContinue = true) :
    (snakeCase name).toList = lowered (words name) := by
  rw [snakeCase, String.toList_intercalate, List.map_map]
  refine congrArg (List.intercalate ['_']) (List.map_congr_left fun word hword => ?_)
  rw [Function.comp_apply, lowerWord, String.toList_ofList, lowerChars,
    lowerFrom_eq_map (all_flatten (exists_of_mem_words h hword))]

/-- A word is followed by an underscore and the other words. -/
theorem lowered_cons_splitWords (word current ls : List Letter) :
    lowered (word :: splitWords current ls) =
      word.flatten.map Char.toLower ++ '_' :: lowered (splitWords current ls) := by
  have hcons : ∃ first rest, splitWords current ls = first :: rest := by
    induction ls generalizing current with
    | nil => exact ⟨_, _, rfl⟩
    | cons l ls ih =>
        rw [splitWords]
        split
        · exact ⟨_, _, rfl⟩
        split
        · exact ⟨_, _, rfl⟩
        · exact ih _
  obtain ⟨first, rest, hcons⟩ := hcons
  rw [hcons, lowered, lowered, List.map_cons, List.map_cons, List.intercalate_cons_cons,
    List.append_assoc, List.singleton_append]

/-- **What becomes of characters of names.** Behind the word that is being read stand characters of
names, and the first of them is the next character in lowercase. -/
theorem exists_lowered_splitWords (current : List Letter) {cs : List Char}
    (h : cs.all isNameContinue = true) :
    ∃ rest, lowered (splitWords current (cs.map fun c => [c])) =
        current.reverse.flatten.map Char.toLower ++ rest ∧
      rest.all isNameContinue = true ∧ rest.head? = cs.head?.map Char.toLower := by
  have hunderscore : isNameContinue '_' = true := by decide
  induction cs generalizing current with
  | nil => exact ⟨[], by simp [splitWords, lowered], rfl, rfl⟩
  | cons c cs ih =>
      rw [List.all_cons, Bool.and_eq_true] at h
      have hlower := (lowerChar_of_isNameContinue h.1).2.1
      rw [List.map_cons, splitWords]
      split
      · rename_i hseparator
        obtain ⟨rest, hrest, hall, -⟩ := ih [] h.2
        rw [Letter.isSeparator_singleton h.1, beq_iff_eq] at hseparator
        refine ⟨'_' :: rest, ?_, ?_, ?_⟩
        · rw [lowered_cons_splitWords, hrest]
          rfl
        · rw [List.all_cons, hunderscore, hall, Bool.and_self]
        · rw [hseparator]
          rfl
      split
      · obtain ⟨rest, hrest, hall, -⟩ := ih [] h.2
        refine ⟨c.toLower :: '_' :: rest, ?_, ?_, rfl⟩
        · rw [lowered_cons_splitWords, hrest]
          simp
        · rw [List.all_cons, List.all_cons, hlower, hunderscore, hall, Bool.and_self, Bool.and_self]
      · obtain ⟨rest, hrest, hall, -⟩ := ih ([c] :: current) h.2
        refine ⟨c.toLower :: rest, ?_, ?_, rfl⟩
        · rw [hrest]
          simp
        · rw [List.all_cons, hlower, hall, Bool.and_self]

/-- **The snake case of a name is a name.** -/
theorem isName_snakeCase {name : String} (h : isName name = true) :
    isName (snakeCase name) = true := by
  obtain ⟨c, cs, hname, hstart, -⟩ := isName_iff.mp h
  have hall := all_isNameContinue h
  obtain ⟨rest, hrest, hcontinue, hhead⟩ := exists_lowered_splitWords [] hall
  rw [← letters_eq_map hall, ← words, ← toList_snakeCase hall] at hrest
  rw [hname, List.head?_cons, Option.map_some, List.head?_eq_some_iff] at hhead
  obtain ⟨others, rfl⟩ := hhead
  rw [List.all_cons, Bool.and_eq_true] at hcontinue
  exact isName_iff.mpr ⟨c.toLower, others, hrest,
    (lowerChar_of_isNameContinue (isNameContinue_of_isNameStart hstart)).2.2.1 hstart, hcontinue.2⟩

/-! ### Capitals -/

/-- The case of a character of a name can be changed, and it stays a character of names. -/
theorem upperChar_of_isNameContinue {c : Char} (h : isNameContinue c = true) :
    upperChar c = [c.toUpper] ∧ c.toUpper.toLower = c.toLower ∧
      c.toLower.toLower = c.toLower :=
  forall_of_isNameContinue (P := fun c => isNameContinue c = true →
    upperChar c = [c.toUpper] ∧ c.toUpper.toLower = c.toLower ∧
      c.toLower.toLower = c.toLower) (by decide) h h

/-- A capitalized word has the letters of the word, up to case. -/
theorem map_toLower_capitalWord {word : List Letter}
    (h : ∀ l ∈ word, ∃ c, isNameContinue c = true ∧ l = [c]) :
    (capitalWord word).toList.map Char.toLower = word.flatten.map Char.toLower := by
  cases word with
  | nil => rfl
  | cons first rest =>
      obtain ⟨c, hc, rfl⟩ := h first List.mem_cons_self
      obtain ⟨hupper, hfirst, -⟩ := upperChar_of_isNameContinue hc
      have hrest : rest.flatten.all isNameContinue = true :=
        all_flatten fun l hl => h l (List.mem_cons_of_mem _ hl)
      rw [capitalWord, String.toList_ofList, lowerChars, lowerFrom_eq_map hrest, upperChars,
        List.flatMap_singleton, hupper, List.flatten_cons, List.singleton_append,
        List.singleton_append, List.map_cons, List.map_cons, hfirst, List.map_map]
      congr 1
      refine List.map_congr_left fun c hmem => ?_
      exact (upperChar_of_isNameContinue (List.all_eq_true.mp hrest c hmem)).2.2

/-- **Pascal case keeps the letters of a name up to case** and drops its underscores. -/
theorem map_toLower_pascalCase {name : String} (h : name.toList.all isNameContinue = true) :
    (pascalCase name).toList.map Char.toLower =
      (name.toList.filter (· != '_')).map Char.toLower := by
  have hword : ∀ word ∈ words name, (capitalWord word).toList.map Char.toLower =
      word.flatten.map Char.toLower :=
    fun word hword => map_toLower_capitalWord (exists_of_mem_words h hword)
  calc (pascalCase name).toList.map Char.toLower
      = (words name).flatMap fun word => (capitalWord word).toList.map Char.toLower := by
        rw [pascalCase, String.toList_join, List.flatMap_map, List.map_flatMap]
    _ = (words name).flatMap fun word => word.flatten.map Char.toLower := by
        rw [List.flatMap_def, List.map_congr_left hword, List.flatMap_def]
    _ = (words name).flatten.flatten.map Char.toLower := by
        rw [← List.map_flatMap, List.flatMap_def, List.flatten_flatten]
    _ = (name.toList.filter (· != '_')).map Char.toLower := by
        rw [flatten_words h, ← List.flatMap_def, List.flatMap_singleton']

/-! ### Continued names -/

variable {name suffix : String}

/-- A name without underscores loses none. -/
theorem filter_underscores_eq_self (h : '_' ∉ suffix.toList) :
    suffix.toList.filter (· != '_') = suffix.toList := by
  rw [List.filter_eq_self]
  exact fun c hc => bne_iff_ne.mpr fun heq => h (heq ▸ hc)

/-- What is put behind a name ends its Pascal case, up to case. -/
theorem suffix_of_pascalCase_append (h : (name ++ suffix).toList.all isNameContinue = true)
    (hplain : '_' ∉ suffix.toList) :
    suffix.toList.map Char.toLower <:+ (pascalCase (name ++ suffix)).toList.map Char.toLower := by
  rw [map_toLower_pascalCase h, String.toList_append, List.filter_append,
    filter_underscores_eq_self hplain, List.map_append]
  exact List.suffix_append _ _

/-- A text that ends otherwise is not the Pascal case of a continued name. -/
theorem pascalCase_append_ne {target : String}
    (h : (name ++ suffix).toList.all isNameContinue = true) (hplain : '_' ∉ suffix.toList)
    (htarget : ¬suffix.toList.map Char.toLower <:+ target.toList.map Char.toLower) :
    pascalCase (name ++ suffix) ≠ target := by
  rintro rfl
  exact htarget (suffix_of_pascalCase_append h hplain)

/-- Underscores in front of a name add nothing to its Pascal case. -/
theorem pascalCase_append_of_underscores (hname : ∀ c ∈ name.toList, c = '_')
    (h : suffix.toList.all isNameContinue = true) :
    pascalCase (name ++ suffix) = pascalCase suffix := by
  have hskip : ∀ cs : List Char, (∀ c ∈ cs, c = '_') → ∀ ls : List Letter,
      ((splitWords [] (cs.map (fun c => [c]) ++ ls)).map capitalWord).flatMap String.toList =
        ((splitWords [] ls).map capitalWord).flatMap String.toList := by
    intro cs
    induction cs with
    | nil => exact fun _ _ => rfl
    | cons c cs ih =>
        intro hcs ls
        obtain ⟨rfl, hrest⟩ := List.forall_mem_cons.mp hcs
        rw [← ih hrest ls]
        rfl
  have hall : (name ++ suffix).toList.all isNameContinue = true := by
    rw [String.toList_append, List.all_append, h, Bool.and_true, List.all_eq_true]
    intro c hc
    rw [hname c hc]
    decide
  apply String.toList_inj.mp
  rw [pascalCase, pascalCase, String.toList_join, String.toList_join, words, words,
    letters_eq_map hall, letters_eq_map h, String.toList_append, List.map_append]
  exact hskip name.toList hname _

/-- **What is put behind a name is all of its Pascal case** only behind underscores. -/
theorem pascalCase_append_eq_iff (h : (name ++ suffix).toList.all isNameContinue = true)
    (hplain : '_' ∉ suffix.toList) (hself : pascalCase suffix = suffix) :
    pascalCase (name ++ suffix) = suffix ↔ ∀ c ∈ name.toList, c = '_' := by
  constructor
  · intro heq
    have hlength : ((name ++ suffix).toList.filter (· != '_')).length = suffix.toList.length := by
      rw [← List.length_map Char.toLower, ← map_toLower_pascalCase h, heq, List.length_map]
    rw [String.toList_append, List.filter_append, filter_underscores_eq_self hplain,
      List.length_append, Nat.add_eq_right, List.length_eq_zero_iff,
      List.filter_eq_nil_iff] at hlength
    intro c hc
    simpa using hlength c hc
  · intro hname
    rw [String.toList_append, List.all_append, Bool.and_eq_true] at h
    rw [pascalCase_append_of_underscores hname h.2, hself]

end Text
end ClientSdk
