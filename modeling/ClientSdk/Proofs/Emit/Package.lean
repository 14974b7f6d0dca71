import ClientSdk.Emit.Files
import ClientSdk.Plan
import ClientSdk.Proofs.Emit.Failures

/-!
# Packages That Are Accepted

A plan is checked before any document is read, and its package is read as a path once code is
emitted. The check looks at characters: the parts between double colons have to be plain
identifiers. The reader of paths also knows words that are no identifiers, and the check lets most
of them pass. So the package of a plan that was accepted can be read exactly when none of its parts
is such a word.

## Main definitions

* `moduleParts`: the parts of a package between double colons.

## Main results

* `intercalate_splitAtColons`: a text is its parts with double colons between them.
* `PackagePath.tokens?_of_spellsModule`: the tokens of a package that is accepted.
* `PackagePath.parse?_of_spellsModule`: such a package is a path unless a part is a reserved word.
* `package_parses_iff`: the same for plans, with what it means for the files of models.
-/

namespace ClientSdk

/-! ### Parts of a text -/

/-- The parts of a package between double colons. -/
def moduleParts (package : String) : List String :=
  (splitAtColons package.toList).map String.ofList

/-- There is a part, if an empty one. -/
theorem exists_splitAtColons_eq_cons (cs : List Char) :
    ∃ part parts, splitAtColons cs = part :: parts := by
  induction cs using splitAtColons.induct with
  | case1 => exact ⟨[], [], by rw [splitAtColons]⟩
  | case2 rest _ => exact ⟨[], splitAtColons rest, by rw [splitAtColons]⟩
  | case3 c rest hcolons part parts hrest _ =>
      exact ⟨c :: part, parts, by rw [splitAtColons.eq_3 c rest hcolons, hrest]⟩
  | case4 c rest _ hrest ih =>
      obtain ⟨part, parts, hcons⟩ := ih
      cases hrest.symm.trans hcons

/-- **A text is its parts with double colons between them.** -/
theorem intercalate_splitAtColons (cs : List Char) :
    [':', ':'].intercalate (splitAtColons cs) = cs := by
  induction cs using splitAtColons.induct with
  | case1 => rw [splitAtColons, List.intercalate_singleton]
  | case2 rest ih =>
      obtain ⟨part, parts, hrest⟩ := exists_splitAtColons_eq_cons rest
      rw [splitAtColons, hrest, List.intercalate_cons_cons, ← hrest, ih]
      rfl
  | case3 c rest hcolons part parts hrest ih =>
      rw [hrest] at ih
      rw [splitAtColons.eq_3 c rest hcolons, hrest]
      -- The character goes in front of the first part, whether others follow or not.
      cases parts with
      | nil => rw [List.intercalate_singleton, ← ih, List.intercalate_singleton]
      | cons _ _ => rw [List.intercalate_cons_cons, ← ih, List.intercalate_cons_cons]; rfl
  | case4 c rest _ hrest _ =>
      obtain ⟨part, parts, hcons⟩ := exists_splitAtColons_eq_cons rest
      cases hrest.symm.trans hcons

/-- A part that is accepted begins like a name and goes on like one. -/
theorem exists_cons_of_isModuleSegment {part : List Char} (h : isModuleSegment part = true) :
    ∃ c cs, part = c :: cs ∧ Token.isNameStart c = true ∧
      ∀ d ∈ cs, Token.isNameContinue d = true := by
  rw [isModuleSegment, Bool.and_eq_true] at h
  cases part with
  | nil => cases h.1
  | cons c cs =>
      have hplain := h.1
      rw [isPlainIdentifier, Bool.and_eq_true, List.all_eq_true] at hplain
      refine ⟨c, cs, rfl, hplain.1, fun d hd => ?_⟩
      rw [Token.isNameContinue, Token.isNameStart, Bool.or_right_comm]
      exact hplain.2 d hd

namespace PackagePath

/-! ### Tokens -/

/-- What begins names is no blank and no mark, and it may begin identifiers. -/
theorem isStart_of_isNameStart {c : Char} (h : Token.isNameStart c = true) :
    (isStart c = true ∧ isBlank c = false) ∧ c ≠ ':' ∧ c ≠ '/' := by
  have hall : ∀ c, Token.isNameContinue c = true → Token.isNameStart c = true →
      (isStart c = true ∧ isBlank c = false) ∧ c ≠ ':' ∧ c ≠ '/' := fun c hc =>
    ClientSdk.Token.forall_of_isNameContinue (P := fun c => Token.isNameStart c = true →
      (isStart c = true ∧ isBlank c = false) ∧ c ≠ ':' ∧ c ≠ '/') (by decide) hc
  exact hall c (Token.isNameContinue_of_isNameStart h) h

/-- A character that is no blank and begins no comment begins a token. -/
theorem tokensWithin_cons {c : Char} {rest after : List Char} {token : Token} (hslash : c ≠ '/')
    (hblank : isBlank c = false) (htoken : token? c rest = some (token, after)) (steps : Nat) :
    tokensWithin (steps + 1) (c :: rest) = (tokensWithin steps after).map (token :: ·) := by
  rw [tokensWithin.eq_5 _ _ _ (fun _ h _ => hslash h) (fun _ h _ => hslash h), hblank,
    if_neg Bool.false_ne_true, htoken]
  exact Option.map_eq_bind.symm

/-- A part in front of double colons, or of the end, is one token. -/
theorem tokensWithin_segment {part after : List Char} (hpart : isModuleSegment part = true)
    (hafter : ∀ c ∈ after.head?, c = ':') (steps : Nat) :
    tokensWithin (steps + 1) (part ++ after) =
      (tokensWithin steps after).map (.ident (.plain (String.ofList part)) :: ·) := by
  obtain ⟨c, cs, rfl, hstart, hcontinue⟩ := exists_cons_of_isModuleSegment hpart
  obtain ⟨⟨hstart, hblank⟩, hcolon, hslash⟩ := isStart_of_isNameStart hstart
  have hcs : ∀ d ∈ cs, Text.isIdentifierContinue d = true := fun d hd =>
    Text.isIdentifierContinue_of_isNameContinue (hcontinue d hd)
  have htake : (cs ++ after).takeWhile Text.isIdentifierContinue = cs := by
    rw [List.takeWhile_append_of_pos hcs]
    cases after with
    | nil => simp
    | cons d after =>
        obtain rfl := hafter d rfl
        rw [List.takeWhile_cons_of_neg (by decide), List.append_nil]
  have hdrop : (cs ++ after).dropWhile Text.isIdentifierContinue = after := by
    rw [List.dropWhile_append_of_pos hcs]
    cases after with
    | nil => rfl
    | cons d after =>
        obtain rfl := hafter d rfl
        rw [List.dropWhile_cons_of_neg (by decide)]
  have htoken : token? c (cs ++ after) =
      some (.ident (.plain (String.ofList (c :: cs))), after) := by
    rw [token?.eq_def, if_neg hcolon, if_pos hstart, htake, hdrop]
    cases after with
    | nil => simp [Ident.plain]
    | cons d after =>
        obtain rfl := hafter d rfl
        simp [Ident.plain]
  rw [List.cons_append, tokensWithin_cons hslash hblank htoken]

/-- Double colons are one token. -/
theorem tokensWithin_colons (steps : Nat) (rest : List Char) :
    tokensWithin (steps + 1) (':' :: ':' :: rest) =
      (tokensWithin steps rest).map (.colons :: ·) :=
  tokensWithin_cons (by decide) (by decide) (by rw [token?.eq_def, if_pos rfl]; rfl) steps

/-- The tokens of parts with double colons between them. A step takes at least one character. -/
theorem tokensWithin_intercalate {parts : List (List Char)}
    (h : ∀ part ∈ parts, isModuleSegment part = true) {steps : Nat}
    (hsteps : ([':', ':'].intercalate parts).length < steps) :
    tokensWithin steps ([':', ':'].intercalate parts) =
      some ((parts.map fun part => .ident (.plain (String.ofList part))).intersperse .colons) := by
  induction parts generalizing steps with
  | nil =>
      obtain ⟨steps, rfl⟩ := Nat.exists_eq_add_of_lt hsteps
      rfl
  | cons part parts ih =>
      obtain ⟨hpart, hparts⟩ := List.forall_mem_cons.mp h
      have hne : 0 < part.length := by
        obtain ⟨c, cs, rfl, -, -⟩ := exists_cons_of_isModuleSegment hpart
        exact Nat.succ_pos _
      cases parts with
      | nil =>
          rw [List.intercalate_singleton] at hsteps
          obtain ⟨steps, rfl⟩ : ∃ steps', steps = steps' + 2 := ⟨steps - 2, by omega⟩
          have hlast : tokensWithin (steps + 2) (part ++ []) = _ :=
            tokensWithin_segment hpart (by simp) (steps + 1)
          rw [List.append_nil] at hlast
          rw [List.intercalate_singleton, hlast]
          rfl
      | cons part' parts =>
          rw [List.intercalate_cons_cons, List.append_assoc] at hsteps ⊢
          simp only [List.length_append, List.length_cons] at hsteps
          obtain ⟨steps, rfl⟩ : ∃ steps', steps = steps' + 2 := ⟨steps - 2, by omega⟩
          rw [tokensWithin_segment hpart (by simp), List.cons_append, List.singleton_append,
            tokensWithin_colons, ih hparts (by omega)]
          rfl

/-- **The tokens of a package that is accepted** are its parts with double colons between them. -/
theorem tokens?_of_spellsModule {package : String} (h : spellsModule package = true) :
    tokens? package =
      some ((((moduleParts package).map Ident.plain).map .ident).intersperse .colons) := by
  have hparts : ∀ part ∈ splitAtColons package.toList, isModuleSegment part = true :=
    List.all_eq_true.mp (Bool.and_eq_true_iff.mp h).1
  have htokens := tokensWithin_intercalate hparts (Nat.lt_succ_self _)
  rw [intercalate_splitAtColons] at htokens
  rw [tokens?, htokens, moduleParts, List.map_map, List.map_map]
  rfl

/-! ### Paths -/

/-- An identifier in front of double colons and another one, or of the end, is a segment unless it
is a reserved word. The keywords that name modules are not among these. -/
theorem readSegment_ident {ident : Ident} (hraw : ident.raw = false) {rest : List Token}
    (hrest : rest = [] ∨ ∃ next after, rest = .colons :: .ident next :: after) (steps : Nat) :
    readSegment (steps + 1) (.ident ident :: rest) =
      if ident.text ∈ reservedWords then none else some ({ ident }, rest) := by
  have hdisjoint : ∀ word ∈ moduleKeywords, word ∉ reservedWords := by decide
  have harguments : (∀ args, rest ≠ .symbol '<' :: args) ∧
      ∀ args, rest ≠ .colons :: .symbol '<' :: args := by
    rcases hrest with rfl | ⟨next, after, rfl⟩
    · exact ⟨nofun, nofun⟩
    · exact ⟨nofun, nofun⟩
  rw [readSegment, hraw]
  · simp only [Bool.not_false, Bool.true_and, List.contains_iff_mem]
    split_ifs with hkeyword hreserved
    · exact absurd hreserved (hdisjoint _ hkeyword)
    · rfl
    · rfl
    · rfl
  · exact harguments.1
  · exact harguments.2

/-- What has a separator between its members begins with the first of them. -/
theorem exists_intersperse_eq_cons (token : Token) (tokens : List Token) :
    ∃ after, (token :: tokens).intersperse .colons = token :: after := by
  cases tokens with
  | nil => exact ⟨[], rfl⟩
  | cons next tokens => exact ⟨_, List.intersperse_cons_cons⟩

/-- Identifiers with double colons between them are a path unless one is a reserved word. -/
theorem readSegments_idents {idents : List Ident} (hne : idents ≠ [])
    (hraw : ∀ ident ∈ idents, ident.raw = false) {steps : Nat} (hsteps : idents.length < steps) :
    readSegments steps ((idents.map .ident).intersperse .colons) =
      if ∃ ident ∈ idents, ident.text ∈ reservedWords then none
      else some (idents.map fun ident => { ident }, []) := by
  induction idents generalizing steps with
  | nil => exact absurd rfl hne
  | cons ident idents ih =>
      obtain ⟨hfirst, hothers⟩ := List.forall_mem_cons.mp hraw
      obtain ⟨steps, rfl⟩ : ∃ steps', steps = steps' + 2 := ⟨steps - 2, by grind⟩
      cases idents with
      | nil =>
          simp only [List.map_cons, List.map_nil, List.intersperse_singleton]
          rw [readSegments, readSegment_ident hfirst (Or.inl rfl)]
          split_ifs <;> simp_all
      | cons next idents =>
          obtain ⟨after, hafter⟩ : ∃ after, ((next :: idents).map Token.ident).intersperse .colons =
              .ident next :: after := exists_intersperse_eq_cons _ _
          have hrest : readSegments (steps + 1) (.ident next :: after) = _ :=
            hafter ▸ ih (List.cons_ne_nil _ _) hothers (by grind)
          have htokens : ((ident :: next :: idents).map Token.ident).intersperse .colons =
              .ident ident :: .colons :: .ident next :: after := by
            rw [← hafter]
            rfl
          rw [htokens, readSegments, readSegment_ident hfirst (Or.inr ⟨next, after, rfl⟩)]
          by_cases hreserved : ident.text ∈ reservedWords
          · rw [if_pos hreserved, if_pos ⟨ident, List.mem_cons_self, hreserved⟩]
            rfl
          · rw [if_neg hreserved]
            change (readSegments (steps + 1) (.ident next :: after) >>=
              fun read => some ({ ident } :: read.1, read.2)) = _
            rw [hrest]
            have hcons := List.exists_mem_cons_iff (fun ident : Ident => ident.text ∈ reservedWords)
              ident (next :: idents)
            by_cases hlater : ∃ later ∈ next :: idents, later.text ∈ reservedWords
            · rw [if_pos hlater, if_pos (hcons.mpr (Or.inr hlater))]
              rfl
            · rw [if_neg hlater, if_neg fun h => (hcons.mp h).elim hreserved hlater]
              rfl

/-- A path of identifiers has no double colons in front. -/
theorem readPath_idents {idents : List Ident} (hne : idents ≠ [])
    (hraw : ∀ ident ∈ idents, ident.raw = false) {steps : Nat} (hsteps : idents.length < steps) :
    readPath (steps + 1) ((idents.map .ident).intersperse .colons) =
      if ∃ ident ∈ idents, ident.text ∈ reservedWords then none
      else some ({ segments := idents.map fun ident => { ident } }, []) := by
  have hread := readSegments_idents hne hraw hsteps
  cases idents with
  | nil => exact absurd rfl hne
  | cons ident idents =>
      obtain ⟨after, hafter⟩ : ∃ after, ((ident :: idents).map Token.ident).intersperse .colons =
          .ident ident :: after := exists_intersperse_eq_cons _ _
      rw [hafter] at hread ⊢
      rw [readPath, hread]
      · split_ifs with hreserved
        · rfl
        · rfl
      · exact nofun

/-- **A package that is accepted is a path unless a part of it is a reserved word.** -/
theorem parse?_of_spellsModule {package : String} (h : spellsModule package = true) :
    parse? package =
      if ∃ part ∈ moduleParts package, part ∈ reservedWords then none
      else some { segments := (moduleParts package).map fun part => { ident := .plain part } } := by
  have hne : (moduleParts package).map Ident.plain ≠ [] := by
    obtain ⟨part, parts, hparts⟩ := exists_splitAtColons_eq_cons package.toList
    rw [moduleParts, hparts]
    exact List.cons_ne_nil _ _
  have hraw : ∀ ident ∈ (moduleParts package).map Ident.plain, ident.raw = false :=
    List.forall_mem_map.mpr fun _ _ => rfl
  have hsteps : ((moduleParts package).map Ident.plain).length <
      3 * ((((moduleParts package).map Ident.plain).map Token.ident).intersperse .colons).length +
        2 := by
    simp only [List.length_intersperse, List.length_map]
    omega
  have hreserved : (∃ ident ∈ (moduleParts package).map Ident.plain, ident.text ∈ reservedWords) ↔
      ∃ part ∈ moduleParts package, part ∈ reservedWords := by
    simp [Ident.plain]
  rw [parse?, tokens?_of_spellsModule h, Option.bind_eq_bind, Option.bind_some,
    readPath_idents hne hraw hsteps, List.map_map]
  by_cases hpart : ∃ part ∈ moduleParts package, part ∈ reservedWords
  · rw [if_pos hpart, if_pos (hreserved.mpr hpart)]
    rfl
  · rw [if_neg hpart, if_neg fun h => hpart (hreserved.mp h)]
    rfl

end PackagePath

/-! ### Plans -/

/-- A plan that is accepted has an operation document, and a package of module segments. -/
theorem Plan.check_eq_ok_iff {plan : Plan} :
    plan.check = .ok () ↔ plan.operations ≠ [] ∧ spellsModule plan.package = true := by
  rw [Plan.check]
  split_ifs with hempty hspells
  · simp_all
  · simp_all
  · simp_all

section Files

variable {P : GenerationError → Prop}

/-- A name has an identifier, or the failure has the property. -/
theorem failsOnly_ofValueName (h : ∀ text, P (.notAnIdentifier text)) (name : String) :
    FailsOnly P (Ident.ofValueName name) := by
  intro e herror
  rw [Ident.eq_of_ofSpelling_eq_error herror]
  exact h _

/-- Code that obeys the rules is rendered. -/
theorem failsOnly_renderCode (h : P .invalidCode) (file : Code.File) :
    FailsOnly P (renderCode file) := by
  rw [renderCode]
  split
  · exact .ok _
  · exact .error h

/-- The files of operations fail with the module or the code of one, or where two modules meet. -/
theorem failsOnly_operationFiles (hcollision : ∀ clash name, P (.namingCollision clash name))
    (hcode : P .invalidCode) {models : List ClassModel}
    (hnames : ∀ model ∈ models, FailsOnly P (Ident.ofValueName model.operationName))
    (h : ∀ model ∈ models, FailsOnly P (emitOperation model)) (taken : List String) :
    FailsOnly P (operationFiles taken models) := by
  induction models generalizing taken with
  | nil => exact .ok _
  | cons model models ih =>
      obtain ⟨hname, hothers⟩ := List.forall_mem_cons.mp hnames
      obtain ⟨hmodel, hmodels⟩ := List.forall_mem_cons.mp h
      rw [operationFiles]
      refine .bind (fun e herror => hname e (map_eq_error_iff.mp herror)) fun name _ => ?_
      split
      · exact .error (hcollision _ _)
      · exact .bind hmodel fun _ _ => .bind (failsOnly_renderCode hcode _) fun _ _ =>
          .bind (ih hothers hmodels _) fun _ _ => .pure _

/-- All files fail for what those of the operations fail for. -/
theorem failsOnly_outputFiles (hcollision : ∀ clash name, P (.namingCollision clash name))
    (hcode : P .invalidCode) {models : List ClassModel}
    (hnames : ∀ model ∈ models, FailsOnly P (Ident.ofValueName model.operationName))
    (h : ∀ model ∈ models, FailsOnly P (emitOperation model)) :
    FailsOnly P (outputFiles models) := by
  have hindex : FailsOnly P (indexFile (models.map (·.operationName))) :=
    .bind (.bind (.mapM (List.forall_mem_map.mpr hnames)) fun _ _ => .pure _)
      fun _ _ => .bind (failsOnly_renderCode hcode _) fun _ _ => .pure _
  exact .bind (failsOnly_operationFiles hcollision hcode hnames h []) fun _ _ =>
    .bind hindex fun _ _ => .pure _

end Files

/-- The failure is not that of a package. -/
def SparesPackage (e : GenerationError) : Prop := ∀ package, e ≠ .invalidPackage package

/-- Files of models whose packages are paths do not fail for want of a path. -/
theorem outputFiles_ne_invalidPackage {models : List ClassModel}
    (h : ∀ model ∈ models, ∃ path, PackagePath.parse model.package = .ok path) (text : String) :
    outputFiles models ≠ .error (.invalidPackage text) := by
  have htext : ∀ text, SparesPackage (.notAnIdentifier text) := fun _ _ => nofun
  have hcollision : ∀ clash name, SparesPackage (.namingCollision clash name) := fun _ _ _ => nofun
  have hcode : SparesPackage .invalidCode := fun _ => nofun
  have hconstructor : ∀ name, ¬Emit.IsConstructor name →
      SparesPackage (.unresolvedConstructor name) := fun _ _ _ => nofun
  have hmodel : ∀ model ∈ models, FailsOnly SparesPackage (emitOperation model) := by
    intro model hmem
    obtain ⟨path, hpath⟩ := h model hmem
    refine (Emit.modelFails_of_naming htext hcollision ?_ ?_ ?_).emitOperation
    · rw [hpath]
      exact .ok _
    · exact fun arg _ => .of_forall hconstructor arg
    · exact fun _ _ _ _ arg _ => .of_forall hconstructor arg
  have hfiles : FailsOnly SparesPackage (outputFiles models) :=
    failsOnly_outputFiles hcollision hcode (fun _ _ => failsOnly_ofValueName htext _) hmodel
  exact fun herror => hfiles _ herror text rfl

/-- Files are not made of models whose first operation has no module. -/
theorem outputFiles_cons_of_moduleName {model : ClassModel} {e : GenerationError}
    (hname : moduleName model.operationName = .error e) (models : List ClassModel) :
    outputFiles (model :: models) = .error e :=
  bind_eq_error_iff.mpr (Or.inl (bind_eq_error_iff.mpr (Or.inl hname)))

/-- Files are not made of models the first of which has no code, unless its operation has no
module. -/
theorem outputFiles_cons_of_emitOperation {model : ClassModel} {e : GenerationError}
    (hemit : emitOperation model = .error e) {name : String}
    (hname : moduleName model.operationName = .ok name) (models : List ClassModel) :
    outputFiles (model :: models) = .error e := by
  have hfiles : operationFiles [] (model :: models) = .error e := by
    rw [operationFiles]
    refine bind_eq_error_iff.mpr (Or.inr ⟨name, hname, ?_⟩)
    rw [if_neg List.not_mem_nil]
    exact bind_eq_error_iff.mpr (Or.inl hemit)
  exact bind_eq_error_iff.mpr (Or.inl hfiles)

/-- Files are not made of models whose package is no path: the first model is refused, unless its
operation has no module. -/
theorem outputFiles_cons_of_parse {model : ClassModel} {e : GenerationError}
    (hparse : PackagePath.parse model.package = .error e) {name : String}
    (hname : moduleName model.operationName = .ok name) (models : List ClassModel) :
    outputFiles (model :: models) = .error e :=
  outputFiles_cons_of_emitOperation (bind_eq_error_iff.mpr (Or.inl hparse)) hname models

/-- A package that is accepted is read as its parts, or refused for one that is a reserved word. -/
theorem parse_of_spellsModule {package : String} (h : spellsModule package = true) :
    PackagePath.parse package =
      if ∃ part ∈ moduleParts package, part ∈ PackagePath.reservedWords then
        .error (.invalidPackage package)
      else .ok { segments := (moduleParts package).map fun part => { ident := .plain part } } := by
  rw [PackagePath.parse, PackagePath.parse?_of_spellsModule h]
  split_ifs
  · rfl
  · rfl

/-- **A plan that is accepted has a package that can be read** exactly when no part of the package
is a reserved word. With one, the first model is refused once all documents have been read. -/
theorem package_parses_iff {plan : Plan} (h : plan.check = .ok ()) :
    ((∃ path, PackagePath.parse plan.package = .ok path) ↔
      ∀ part ∈ moduleParts plan.package, part ∉ PackagePath.reservedWords) ∧
    ∀ models : List ClassModel, (∀ model ∈ models, model.package = plan.package) →
      (outputFiles models = .error (.invalidPackage plan.package) ↔
        (∃ part ∈ moduleParts plan.package, part ∈ PackagePath.reservedWords) ∧
          ∃ model ∈ models.head?, ∃ name, moduleName model.operationName = .ok name) := by
  have hparse := parse_of_spellsModule (Plan.check_eq_ok_iff.mp h).2
  by_cases hreserved : ∃ part ∈ moduleParts plan.package, part ∈ PackagePath.reservedWords
  · rw [if_pos hreserved] at hparse
    refine ⟨?_, fun models hmodels => ?_⟩
    · obtain ⟨part, hpart, hword⟩ := hreserved
      exact iff_of_false (fun ⟨path, hpath⟩ => nomatch hparse.symm.trans hpath)
        fun hfree => hfree part hpart hword
    cases models with
    | nil =>
        refine iff_of_false (outputFiles_ne_invalidPackage
          (fun _ hmem => absurd hmem List.not_mem_nil) _) ?_
        rintro ⟨-, _, ⟨⟩, -⟩
    | cons model models =>
        have hmodel := (congrArg PackagePath.parse (hmodels model List.mem_cons_self)).trans hparse
        cases hname : moduleName model.operationName with
        | ok name =>
            exact iff_of_true (outputFiles_cons_of_parse hmodel hname models)
              ⟨hreserved, model, rfl, name, hname⟩
        | error e =>
            refine iff_of_false (fun hfiles => ?_) ?_
            · rw [outputFiles_cons_of_moduleName hname models] at hfiles
              cases hfiles
              cases Ident.eq_of_ofSpelling_eq_error (map_eq_error_iff.mp hname)
            · rintro ⟨-, _, ⟨⟩, name, hok⟩
              cases hname.symm.trans hok
  · rw [if_neg hreserved] at hparse
    refine ⟨iff_of_true ⟨_, hparse⟩ fun part hpart hword => hreserved ⟨part, hpart, hword⟩,
      fun models hmodels => iff_of_false (outputFiles_ne_invalidPackage ?_ _) fun h =>
        hreserved h.1⟩
    exact fun model hmem => ⟨_, (hmodels model hmem).symm ▸ hparse⟩

/-- A plan with one operation document whose code goes into the package. -/
def planInto (package : String) : Plan where
  schema := "schema.graphql"
  operations := ["operations.graphql"]
  directory := "src/sdk"
  package := package

/-- The model of an operation without variables that selects nothing. -/
def emptyModelIn (package : String) : ClassModel where
  package := package
  operationName := "Ping"
  operationKind := .query

/-- The package `crate::sdk` is accepted and can be read, and files are not refused for it. -/
theorem package_parses_iff_sdk :
    (planInto "crate::sdk").check = .ok () ∧
      (∃ path, PackagePath.parse "crate::sdk" = .ok path) ∧
      outputFiles [emptyModelIn "crate::sdk"] ≠ .error (.invalidPackage "crate::sdk") := by
  have hcheck : (planInto "crate::sdk").check = .ok () := by rfl
  have hparts : moduleParts "crate::sdk" = ["crate", "sdk"] := by rfl
  have hfree : ∀ part ∈ moduleParts "crate::sdk", part ∉ PackagePath.reservedWords := by
    rw [hparts]
    decide +kernel
  obtain ⟨hparses, hfiles⟩ := package_parses_iff hcheck
  refine ⟨hcheck, hparses.mpr hfree, fun herror => ?_⟩
  obtain ⟨⟨part, hpart, hword⟩, -⟩ :=
    (hfiles [emptyModelIn "crate::sdk"] (List.forall_mem_singleton.mpr rfl)).mp herror
  exact hfree part hpart hword

/-- The package `crate::type` is accepted although it is no path, so the first model is refused. -/
theorem package_refused_type :
    (planInto "crate::type").check = .ok () ∧
      (¬∃ path, PackagePath.parse "crate::type" = .ok path) ∧
      outputFiles [emptyModelIn "crate::type"] = .error (.invalidPackage "crate::type") := by
  have hspells : spellsModule "crate::type" = true := by rfl
  have hparts : moduleParts "crate::type" = ["crate", "type"] := by rfl
  have hreserved : ∃ part ∈ moduleParts "crate::type", part ∈ PackagePath.reservedWords :=
    ⟨"type", by rw [hparts]; decide, by decide +kernel⟩
  have hparse : PackagePath.parse "crate::type" = .error (.invalidPackage "crate::type") := by
    rw [parse_of_spellsModule hspells, if_pos hreserved]
  have hnamed : (moduleName "Ping").isOk = true := by decide +kernel
  obtain ⟨name, hname⟩ := exists_eq_ok_of_isOk hnamed
  have hcheck : (planInto "crate::type").check = .ok () := by rfl
  refine ⟨hcheck, ?_, @outputFiles_cons_of_parse (emptyModelIn "crate::type") _ hparse _ hname []⟩
  rintro ⟨path, hpath⟩
  cases hparse.symm.trans hpath

end ClientSdk
