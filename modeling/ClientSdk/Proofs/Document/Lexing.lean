import ClientSdk.Document.Token.Lexer
import ClientSdk.Proofs.Text.Names
import ClientSdk.Schema.Sdl

/-!
# Reading Written Texts

What the automaton of tokens makes of the pieces that schema text is written from. Each piece is
read as its tokens, whatever comes after it, so texts that are put together from such pieces are
read piece by piece. A documentation text that holds a carriage return cannot be read back.

## Main definitions

* `Lexer.Reads`: a piece of text is read as tokens, or cannot be read.

## Main results

* `Lexer.Reads.append`, `Lexer.reads_flatMap`: pieces are read one after another.
* `Lexer.Reads.name`: a name ends where a character cannot go on with it.
* `Lexer.reads_quoted`: a documentation text is read as itself.
* `Token.scan?_of_reads`: the tokens of a text that is read as a whole.
* `Token.areNamed_of_scan?`: what is read as a name is a name.
-/

namespace ClientSdk

namespace Lexer

open Token

/-- Between tokens, the characters `cs` are read as `tokens`, whatever comes after them. Where they
are not `readable`, no text that goes on with them can be read. -/
def Reads (cs : List Char) (readable : Bool) (tokens : List Token) : Prop :=
  ∀ rest, run .between (cs ++ rest) =
    if readable then (run .between rest).map fun last => (last.1, tokens ++ last.2) else none

/-! ### Pieces in sequence -/

/-- Reading one character after a state is a step and what comes after it. -/
theorem run_cons (state : State) (c : Char) (cs : List Char) :
    run state (c :: cs) = (step state c).bind fun next =>
      (run next.1 cs).map fun last => (last.1, next.2 ++ last.2) := by
  rw [run]
  cases step state c with
  | none => rfl
  | some next =>
      obtain ⟨next, tokens⟩ := next
      simp only [Option.bind_eq_bind, Option.bind_some]
      cases run next cs with
      | none => rfl
      | some last => rfl

/-- A character that completes no token only changes the state. -/
theorem run_cons_of_step {state next : State} {c : Char} (h : step state c = some (next, []))
    (cs : List Char) : run state (c :: cs) = run next cs := by
  rw [run_cons, h, Option.bind_some]
  cases run next cs with
  | none => rfl
  | some last => rfl

/-- Nothing is read as no tokens. -/
theorem reads_nil : Reads [] true [] := by
  intro rest
  rw [if_pos rfl, List.nil_append]
  cases run .between rest with
  | none => rfl
  | some last => rfl

/-- **Pieces are read one after the other.** -/
theorem Reads.append {first second : List Char} {readable readable' : Bool}
    {tokens tokens' : List Token} (h : Reads first readable tokens)
    (h' : Reads second readable' tokens') :
    Reads (first ++ second) (readable && readable') (tokens ++ tokens') := by
  intro rest
  rw [List.append_assoc, h, h' rest]
  cases readable with
  | false => rfl
  | true =>
      cases readable' with
      | false => rfl
      | true =>
          cases run .between rest with
          | none => rfl
          | some last => simp

/-- A sequence of pieces is read piece by piece. -/
theorem reads_flatMap {α : Type} {items : List α} {chars : α → List Char} {readable : α → Bool}
    {tokens : α → List Token}
    (h : ∀ item ∈ items, Reads (chars item) (readable item) (tokens item)) :
    Reads (items.flatMap chars) (items.all readable) (items.flatMap tokens) := by
  induction items with
  | nil => exact reads_nil
  | cons item items ih =>
      obtain ⟨hitem, hitems⟩ := List.forall_mem_cons.mp h
      exact hitem.append (ih hitems)

/-- A character that begins no token is passed over. -/
theorem reads_ignored {c : Char} (h : isIgnored c = true) : Reads [c] true [] := by
  intro rest
  have hstep : step .between c = some (.between, []) := by rw [step, start, if_pos h]
  rw [List.singleton_append, run_cons_of_step hstep]
  exact reads_nil rest

/-- A punctuation character is a token. -/
theorem reads_punctuator {c : Char} (h : c ∈ punctuators) : Reads [c] true [.punctuator c] := by
  have hstart : start c = some (.between, [.punctuator c]) := by
    simp only [punctuators, List.mem_cons, List.not_mem_nil, or_false] at h
    rcases h with rfl | rfl | rfl | rfl | rfl | rfl | rfl | rfl | rfl | rfl | rfl | rfl | rfl
    all_goals rfl
  intro rest
  rw [List.singleton_append, run_cons, step, hstart, Option.bind_some]
  rfl

/-! ### Names -/

/-- A character that ends a token is read after it as it is between tokens. -/
theorem run_cons_of_startAfter {state : State} {token : Token} {c : Char}
    (h : step state c = startAfter token c) (cs : List Char) :
    run state (c :: cs) =
      (run .between (c :: cs)).map fun last => (last.1, token :: last.2) := by
  rw [run_cons, run_cons, h, startAfter, step]
  cases start c with
  | none => rfl
  | some next =>
      rw [Option.map_some, Option.bind_some, Option.bind_some, Option.map_map]
      rfl

/-- A name goes on with the characters that may continue it. -/
theorem run_name {read cs : List Char} (h : cs.all isNameContinue = true) (rest : List Char) :
    run (.name read) (cs ++ rest) = run (.name (cs.reverse ++ read)) rest := by
  induction cs generalizing read with
  | nil => rfl
  | cons c cs ih =>
      rw [List.all_cons, Bool.and_eq_true] at h
      have hstep : step (.name read) c = some (.name (c :: read), []) := by
        rw [step, if_pos h.1]
      rw [List.cons_append, run_cons_of_step hstep, ih h.2, List.reverse_cons, List.append_assoc]
      rfl

/-- A character that may begin a name begins one. -/
theorem start_of_isNameStart {c : Char} (h : isNameStart c = true) :
    start c = some (.name [c], []) := by
  have hignored : isIgnored c = false := by
    rw [Bool.eq_false_iff]
    intro hignored
    simp only [isIgnored, isLineEnd, Bool.or_eq_true, beq_iff_eq] at hignored
    rcases hignored with (((rfl | rfl) | rfl) | rfl | rfl) | rfl
    all_goals exact absurd h (by decide)
  have hcomment : c ≠ '#' := by
    rintro rfl
    exact absurd h (by decide)
  rw [start, hignored, if_neg Bool.false_ne_true, if_neg hcomment, if_pos h]

/-- **A name is read up to a character that cannot continue it**, and that character is read as it
is between tokens. -/
theorem Reads.name {name : String} (hname : isName name = true) {c : Char}
    (hend : isNameContinue c = false) {cs : List Char} {readable : Bool} {tokens : List Token}
    (h : Reads (c :: cs) readable tokens) :
    Reads (name.toList ++ c :: cs) readable (.name name :: tokens) := by
  intro rest
  rw [isName] at hname
  cases hchars : name.toList with
  | nil =>
      rw [hchars] at hname
      cases hname
  | cons first others =>
      rw [hchars] at hname
      obtain ⟨hfirst, hothers⟩ := Bool.and_eq_true_iff.mp hname
      have hstep : step (.name (others.reverse ++ [first])) c =
          startAfter (.name (textOf (others.reverse ++ [first]))) c := by
        rw [step, hend, if_neg Bool.false_ne_true]
      have htext : textOf (others.reverse ++ [first]) = name := by
        rw [textOf, List.reverse_append, List.reverse_reverse, List.reverse_singleton,
          List.singleton_append, ← hchars, String.ofList_toList]
      have hbegin : step .between first = some (.name [first], []) := start_of_isNameStart hfirst
      rw [List.cons_append, List.cons_append, run_cons_of_step hbegin, List.append_assoc,
        run_name hothers, List.cons_append, run_cons_of_startAfter hstep, htext,
        ← List.cons_append, h rest]
      cases readable with
      | false => rfl
      | true =>
          cases run .between rest with
          | none => rfl
          | some last => rfl

/-! ### Documentation -/

/-- A character of a text that is no quote, no backslash and no line end stands for itself. -/
theorem step_text {read : List Char} {c : Char} (hquote : c ≠ '"') (hescape : c ≠ '\\')
    (hend : isLineEnd c = false) : step (.text read) c = some (.text (c :: read), []) := by
  rw [step, textStep, if_neg hquote, if_neg hescape, hend, if_neg Bool.false_ne_true]

/-- The written form of a character is read as that character, unless it is a carriage return. -/
theorem run_sdlChar (read : List Char) (c : Char) (rest : List Char) :
    run (.text read) (sdlChar c ++ rest) =
      if c = '\r' then none else run (.text (c :: read)) rest := by
  have hescaped : ∀ written, step (.escape read) written = some (.text (c :: read), []) →
      run (.text read) ('\\' :: written :: rest) = run (.text (c :: read)) rest :=
    fun written hstep => by
      rw [run_cons_of_step rfl, run_cons_of_step hstep]
  by_cases hquote : c = '"'
  · subst hquote
    exact hescaped '"' rfl
  by_cases hescape : c = '\\'
  · subst hescape
    exact hescaped '\\' rfl
  by_cases hfeed : c = '\n'
  · subst hfeed
    exact hescaped 'n' rfl
  rw [sdlChar, if_neg hquote, if_neg hescape, if_neg hfeed, List.singleton_append]
  by_cases hreturn : c = '\r'
  · subst hreturn
    rfl
  · have hend : isLineEnd c = false := by simp [isLineEnd, hfeed, hreturn]
    rw [if_neg hreturn, run_cons_of_step (step_text hquote hescape hend)]

/-- The text holds no carriage return. -/
def isPlainText (text : String) : Bool := !text.toList.contains '\r'

/-- Inside quotes, the written form of a text is read as that text, up to the closing quote. -/
theorem run_text (read cs rest : List Char) :
    run (.text read) (cs.flatMap sdlChar ++ '"' :: rest) =
      if cs.contains '\r' then none
      else (run .between rest).map fun last =>
        (last.1, .string (textOf (cs.reverse ++ read)) :: last.2) := by
  induction cs generalizing read with
  | nil =>
      rw [List.flatMap_nil, List.nil_append, run_cons, step, textStep, if_pos rfl]
      rfl
  | cons c cs ih =>
      have hrev : (c :: cs).reverse ++ read = cs.reverse ++ c :: read := by simp
      rw [hrev, List.flatMap_cons, List.append_assoc, run_sdlChar, ih, List.contains_cons]
      by_cases hreturn : c = '\r'
      · rw [if_pos hreturn, if_pos (by simp [hreturn])]
      · rw [if_neg hreturn, beq_eq_false_iff_ne.mpr (Ne.symm hreturn), Bool.false_or]

/-- **A documentation text is read as itself**, unless it holds a carriage return. -/
theorem reads_quoted (text : String) :
    Reads ('"' :: text.toList.flatMap sdlChar ++ ['"', '\n']) (isPlainText text)
      [.string text] := by
  intro rest
  have hquoted : ∀ cs : List Char, run .quote (cs.flatMap sdlChar ++ '"' :: '\n' :: rest) =
      if cs.contains '\r' then none
      else (run .between rest).map fun last => (last.1, .string (textOf cs.reverse) :: last.2) := by
    intro cs
    have hfeed : run .between ('\n' :: rest) = run .between rest :=
      run_cons_of_step rfl rest
    cases cs with
    | nil =>
        rw [List.flatMap_nil, List.nil_append, run_cons_of_step rfl,
          run_cons_of_startAfter rfl, hfeed]
        rfl
    | cons c cs =>
        -- The first character is written as no quote, so it is read as in a text.
        have hfirst : ∃ first others, sdlChar c = first :: others ∧ first ≠ '"' := by
          rw [sdlChar]
          split
          · exact ⟨_, _, rfl, by decide⟩
          · split
            · exact ⟨_, _, rfl, by decide⟩
            · split
              · exact ⟨_, _, rfl, by decide⟩
              · exact ⟨_, _, rfl, by assumption⟩
        obtain ⟨first, others, hchar, hquote⟩ := hfirst
        have htext := run_text [] (c :: cs) ('\n' :: rest)
        rw [hfeed, List.append_nil] at htext
        rw [← htext, List.flatMap_cons, hchar, List.cons_append, List.cons_append, run_cons,
          run_cons, step, step, if_neg hquote]
  have hchars : '"' :: text.toList.flatMap sdlChar ++ ['"', '\n'] ++ rest =
      '"' :: (text.toList.flatMap sdlChar ++ '"' :: '\n' :: rest) := by simp
  rw [hchars, run_cons_of_step rfl, hquoted, isPlainText]
  cases text.toList.contains '\r' with
  | true => rfl
  | false =>
      rw [textOf, List.reverse_reverse, String.ofList_toList]
      rfl

/-! ### What is read as a name -/

/-- Every name among the tokens is written as a name. -/
def AreNamed (tokens : List Token) : Prop :=
  ∀ name, .name name ∈ tokens → isName name = true

/-- A name that has been begun is written as a name, and so are the names that are complete. -/
def IsNamed (last : State × List Token) : Prop :=
  (∀ read, last.1 = .name read → isName (textOf read) = true) ∧ AreNamed last.2

theorem areNamed_nil : AreNamed [] := fun _ h => absurd h List.not_mem_nil

theorem AreNamed.append {tokens tokens' : List Token} (h : AreNamed tokens)
    (h' : AreNamed tokens') : AreNamed (tokens ++ tokens') := fun name hname =>
  (List.mem_append.mp hname).elim (h name) (h' name)

theorem AreNamed.of_cons {token : Token} {tokens : List Token}
    (h : AreNamed (token :: tokens)) :
    (∀ name, token = .name name → isName name = true) ∧ AreNamed tokens :=
  ⟨fun name heq => h name (heq ▸ List.mem_cons_self),
    fun name hname => h name (List.mem_cons_of_mem _ hname)⟩

/-- What is no name is no name that is written in another way. -/
theorem areNamed_singleton {token : Token}
    (h : ∀ name, token = .name name → isName name = true) : AreNamed [token] :=
  fun name hname => h name (List.mem_singleton.mp hname).symm

/-- A token that is begun is a name only where a character begins a name. -/
theorem isNamed_of_start {c : Char} {last : State × List Token} (h : start c = some last) :
    IsNamed last := by
  have hother : ∀ {state : State} {tokens : List Token}, some (state, tokens) = some last →
      (∀ read, state ≠ .name read) → AreNamed tokens → IsNamed last := by
    intro state tokens heq hstate htokens
    obtain rfl := Option.some.inj heq
    exact ⟨fun read hread => absurd hread (hstate read), htokens⟩
  rw [start] at h
  split at h
  · exact hother h (by simp) areNamed_nil
  split at h
  · exact hother h (by simp) areNamed_nil
  split at h
  · rename_i hname
    obtain rfl := Option.some.inj h
    refine ⟨fun read hread => ?_, areNamed_nil⟩
    obtain rfl := State.name.inj hread
    simp [isName, textOf, hname]
  split at h
  · exact hother h (by simp) areNamed_nil
  split at h
  · exact hother h (by simp) areNamed_nil
  split at h
  · exact hother h (by simp) areNamed_nil
  split at h
  · exact hother h (by simp) (areNamed_singleton (by simp))
  · cases h

/-- A complete token is a name as before, and the next one is begun. -/
theorem isNamed_of_startAfter {token : Token} {c : Char} {last : State × List Token}
    (htoken : ∀ name, token = .name name → isName name = true)
    (h : startAfter token c = some last) : IsNamed last := by
  rw [startAfter, Option.map_eq_some_iff] at h
  obtain ⟨next, hnext, rfl⟩ := h
  obtain ⟨hstate, htokens⟩ := isNamed_of_start hnext
  exact ⟨hstate, (areNamed_singleton htoken).append htokens⟩

/-- Outside names, nothing that is read inside a token makes a name. -/
theorem isNamed_of_textStep {read : List Char} {c : Char} {last : State × List Token}
    (h : textStep read c = some last) : IsNamed last := by
  rw [textStep] at h
  split at h
  · obtain rfl := Option.some.inj h
    exact ⟨by simp, areNamed_singleton (by simp)⟩
  split at h
  · obtain rfl := Option.some.inj h
    exact ⟨by simp, areNamed_nil⟩
  split at h
  · cases h
  · obtain rfl := Option.some.inj h
    exact ⟨by simp, areNamed_nil⟩

/-- The same inside a block. -/
theorem isNamed_of_blockStep {read : List Char} {escaped : Bool} {quotes : Nat} {c : Char}
    {last : State × List Token} (h : blockStep read escaped quotes c = some last) :
    IsNamed last := by
  have hother : ∀ {read' : List Char} {escaped' : Bool} {quotes' : Nat},
      some (State.block read' escaped' quotes', ([] : List Token)) = some last →
      IsNamed last := by
    intro read' escaped' quotes' heq
    obtain rfl := Option.some.inj heq
    exact ⟨by simp, areNamed_nil⟩
  rw [blockStep] at h
  split at h
  · split at h
    · exact hother h
    split at h
    · exact hother h
    · obtain rfl := Option.some.inj h
      exact ⟨by simp, areNamed_singleton (by simp)⟩
  split at h
  · exact hother h
  · exact hother h

/-- The token of a number is no name. -/
theorem ne_name_of_ofNumber? {cs : List Char} {token : Token} (h : ofNumber? cs = some token)
    (name : String) : token ≠ .name name := by
  rintro rfl
  rw [ofNumber?] at h
  simp only [Option.bind_eq_bind, Option.bind_eq_some_iff, Option.pure_def] at h
  obtain ⟨afterWhole, -, h⟩ := h
  split at h
  · cases h
  · simp only [Option.bind_eq_some_iff] at h
    obtain ⟨_, -, _, -, h⟩ := h
    split at h
    · cases h
    · cases h

/-- A name that is being read goes on with a character of names. -/
theorem isName_textOf_cons {read : List Char} {c : Char} (hread : isName (textOf read) = true)
    (hc : isNameContinue c = true) : isName (textOf (c :: read)) = true := by
  have htext : textOf (c :: read) = textOf read ++ String.ofList [c] := by
    rw [textOf, textOf, List.reverse_cons, String.ofList_append]
  rw [htext]
  exact isName_append hread (by simp [hc])

/-- **A step keeps names written as names.** One case for each state. -/
theorem isNamed_of_step {state : State} {c : Char} {last : State × List Token}
    (hstate : ∀ read, state = .name read → isName (textOf read) = true)
    (h : step state c = some last) : IsNamed last := by
  have hother : ∀ {next : State} {tokens : List Token}, some (next, tokens) = some last →
      (∀ read, next ≠ .name read) → AreNamed tokens → IsNamed last := by
    intro next tokens heq hnext htokens
    obtain rfl := Option.some.inj heq
    exact ⟨fun read hread => absurd hread (hnext read), htokens⟩
  cases state with
  | between => exact isNamed_of_start h
  | comment =>
      refine hother h (fun read => ?_) areNamed_nil
      split <;> simp
  | dot =>
      rw [step] at h
      split at h
      · exact hother h (by simp) areNamed_nil
      · cases h
  | dots =>
      rw [step] at h
      split at h
      · exact hother h (by simp) (areNamed_singleton (by simp))
      · cases h
  | name read =>
      rw [step] at h
      split at h
      · rename_i hcontinue
        obtain rfl := Option.some.inj h
        refine ⟨fun read' hread => ?_, areNamed_nil⟩
        obtain rfl := State.name.inj hread
        exact isName_textOf_cons (hstate read rfl) hcontinue
      · exact isNamed_of_startAfter (fun name heq => Token.name.inj heq ▸ hstate read rfl) h
  | number read =>
      rw [step] at h
      split at h
      · exact hother h (by simp) areNamed_nil
      · rw [Option.bind_eq_some_iff] at h
        obtain ⟨token, htoken, h⟩ := h
        exact isNamed_of_startAfter
          (fun name heq => absurd heq (ne_name_of_ofNumber? htoken name)) h
  | quote =>
      rw [step] at h
      split at h
      · exact hother h (by simp) areNamed_nil
      · exact isNamed_of_textStep h
  | quotes =>
      rw [step] at h
      split at h
      · exact hother h (by simp) areNamed_nil
      · exact isNamed_of_startAfter (by simp) h
  | text read => exact isNamed_of_textStep h
  | escape read =>
      rw [step] at h
      split at h
      · exact hother h (by simp) areNamed_nil
      · obtain ⟨char, -, h⟩ := Option.map_eq_some_iff.mp h
        exact hother (congrArg some h) (by simp) areNamed_nil
  | code read digits =>
      rw [step] at h
      split at h
      · exact hother h (by simp) areNamed_nil
      · obtain ⟨char, -, h⟩ := Option.map_eq_some_iff.mp h
        exact hother (congrArg some h) (by simp) areNamed_nil
  | block read escaped quotes => exact isNamed_of_blockStep h

/-- What is read is named when what has been begun is. -/
theorem isNamed_of_run {state : State} {cs : List Char} {last : State × List Token}
    (hstate : ∀ read, state = .name read → isName (textOf read) = true)
    (h : run state cs = some last) : IsNamed last := by
  induction cs generalizing state last with
  | nil =>
      obtain rfl := Option.some.inj h
      exact ⟨hstate, areNamed_nil⟩
  | cons c cs ih =>
      rw [run_cons, Option.bind_eq_some_iff] at h
      obtain ⟨next, hstep, h⟩ := h
      obtain ⟨others, hrun, rfl⟩ := Option.map_eq_some_iff.mp h
      obtain ⟨hnext, htokens⟩ := isNamed_of_step hstate hstep
      obtain ⟨hlast, hothers⟩ := ih hnext hrun
      exact ⟨hlast, htokens.append hothers⟩

end Lexer

/-! ### Whole texts -/

/-- The tokens of a text that is read as a whole. -/
theorem Token.scan?_of_reads {text : String} {readable : Bool} {tokens : List Token}
    (h : Lexer.Reads text.toList readable tokens) :
    Token.scan? text = if readable then some tokens else none := by
  have hrun := h []
  rw [List.append_nil] at hrun
  rw [scan?, hrun]
  cases readable with
  | false => rfl
  | true => simp [Lexer.run, Lexer.finish]

/-- **The names among the tokens of a text are written as names.** -/
theorem Token.areNamed_of_scan? {text : String} {tokens : List Token}
    (h : Token.scan? text = some tokens) : Lexer.AreNamed tokens := by
  rw [scan?] at h
  simp only [Option.bind_eq_bind, Option.bind_eq_some_iff, Option.pure_def] at h
  obtain ⟨⟨state, read⟩, hrun, last, hlast, h⟩ := h
  obtain rfl := Option.some.inj h
  obtain ⟨hstate, hread⟩ := Lexer.isNamed_of_run (by simp) hrun
  refine hread.append ?_
  rw [Lexer.finish.eq_def] at hlast
  split at hlast
  · obtain rfl := Option.some.inj hlast
    exact Lexer.areNamed_nil
  · obtain rfl := Option.some.inj hlast
    exact Lexer.areNamed_nil
  · obtain rfl := Option.some.inj hlast
    exact Lexer.areNamed_singleton fun name heq => Token.name.inj heq ▸ hstate _ ‹_›
  · obtain ⟨token, htoken, rfl⟩ := Option.map_eq_some_iff.mp hlast
    exact Lexer.areNamed_singleton fun name heq =>
      absurd heq (Lexer.ne_name_of_ofNumber? htoken name)
  · obtain rfl := Option.some.inj hlast
    exact Lexer.areNamed_singleton (by simp)
  · cases hlast

end ClientSdk
