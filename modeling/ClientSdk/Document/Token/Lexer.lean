import ClientSdk.Document.Token

/-!
# Reading Tokens

The tokens of a text, found by an automaton that reads one character at a time. What it has
read of an unfinished token is its state; a character that cannot go on with that token ends it
and begins the next one.

## Main definitions

* `Lexer.State`, `Lexer.step`, `Lexer.finish`: the automaton.
* `Token.scan?`: the tokens of a text.

## Main results

* `Lexer.run_append`: a text is read by reading its parts one after another.
-/

namespace ClientSdk

namespace Lexer

open Token

/-- What has been read of an unfinished token. Characters are kept last one first. -/
inductive State where
  /-- Between tokens. -/
  | between
  /-- In a comment. -/
  | comment
  /-- After one dot. -/
  | dot
  /-- After two dots. -/
  | dots
  /-- In a name. -/
  | name (read : List Char)
  /-- In a number. -/
  | number (read : List Char)
  /-- After the quote that opens a text. -/
  | quote
  /-- After two quotes. -/
  | quotes
  /-- In a text. -/
  | text (read : List Char)
  /-- After a backslash in a text. -/
  | escape (read : List Char)
  /-- After a backslash and the letter `u` in a text, with the digits that follow. -/
  | code (read digits : List Char)
  /-- In a block, after a backslash that may escape quotes and after some quotes that may
  belong to three. -/
  | block (read : List Char) (escaped : Bool) (quotes : Nat)
  deriving DecidableEq, Repr, Inhabited

/-- A state after some tokens that have been completed. -/
abbrev Step := Option (State × List Token)

/-- Begins a token, or stays between tokens. -/
def start (c : Char) : Step :=
  if isIgnored c then some (.between, [])
  else if c = '#' then some (.comment, [])
  else if isNameStart c then some (.name [c], [])
  else if c.isDigit ∨ c = '-' then some (.number [c], [])
  else if c = '"' then some (.quote, [])
  else if c = '.' then some (.dot, [])
  else if c ∈ punctuators then some (.between, [.punctuator c])
  else none

/-- Completes a token and begins the next one. -/
def startAfter (token : Token) (c : Char) : Step :=
  (start c).map fun (state, tokens) => (state, token :: tokens)

/-- `c` goes on with a number: digits, letters and dots do, and a sign after the letter of an
exponent. What is read so may still be no number. -/
def continuesNumber (read : List Char) (c : Char) : Bool :=
  isNameContinue c || c == '.' ||
    ((c == '+' || c == '-') && (read.head? == some 'e' || read.head? == some 'E'))

/-- The text of characters that are kept last one first. -/
def textOf (read : List Char) : String := String.ofList read.reverse

/-- The character after a backslash stands for this one. -/
def escaped? (c : Char) : Option Char :=
  match c with
  | '"' => some '"'
  | '\\' => some '\\'
  | '/' => some '/'
  | 'b' => some '\x08'
  | 'f' => some '\x0C'
  | 'n' => some '\n'
  | 'r' => some '\r'
  | 't' => some '\t'
  | _ => none

/-- The value of a hexadecimal digit. -/
def hexValue? (c : Char) : Option Nat :=
  if c.isDigit then some (c.toNat - 48)
  else if 'a' ≤ c ∧ c ≤ 'f' then some (c.toNat - 87)
  else if 'A' ≤ c ∧ c ≤ 'F' then some (c.toNat - 55)
  else none

/-- The character with the given hexadecimal digits, last one first. -/
def codeChar? (digits : List Char) : Option Char := do
  let values ← digits.reverse.mapM hexValue?
  let n := values.foldl (fun n value => 16 * n + value) 0
  if h : n.isValidChar then some (Char.ofNatAux n h) else none

/-- The character `c` in a text. -/
def textStep (read : List Char) (c : Char) : Step :=
  if c = '"' then some (.between, [.string (textOf read)])
  else if c = '\\' then some (.escape read, [])
  else if isLineEnd c then none
  else some (.text (c :: read), [])

/-- What has been read of a block when the backslash and the quotes at its end turn out to be
plain characters. -/
def flush (read : List Char) (escaped : Bool) (quotes : Nat) : List Char :=
  List.replicate quotes '"' ++ (if escaped then '\\' :: read else read)

/-- The character `c` in a block. Three quotes end it, but with a backslash in front they are
characters of the block. -/
def blockStep (read : List Char) (escaped : Bool) (quotes : Nat) (c : Char) : Step :=
  if c = '"' then
    if quotes < 2 then some (.block read escaped (quotes + 1), [])
    else if escaped then some (.block (flush read false 3) false 0, [])
    else some (.between, [.string (dedent read.reverse)])
  else if c = '\\' then some (.block (flush read escaped quotes) true 0, [])
  else some (.block (c :: flush read escaped quotes) false 0, [])

/-- Reads one character. -/
def step : State → Char → Step
  | .between, c => start c
  | .comment, c => some (if isLineEnd c then .between else .comment, [])
  | .dot, c => if c = '.' then some (.dots, []) else none
  | .dots, c => if c = '.' then some (.between, [.spread]) else none
  | .name read, c =>
    if isNameContinue c then some (.name (c :: read), [])
    else startAfter (.name (textOf read)) c
  | .number read, c =>
    if continuesNumber read c then some (.number (c :: read), [])
    else (ofNumber? read.reverse).bind fun token => startAfter token c
  | .quote, c => if c = '"' then some (.quotes, []) else textStep [] c
  | .quotes, c =>
    if c = '"' then some (.block [] false 0, []) else startAfter (.string "") c
  | .text read, c => textStep read c
  | .escape read, c =>
    if c = 'u' then some (.code read [], [])
    else (escaped? c).map fun char => (.text (char :: read), [])
  | .code read digits, c =>
    if digits.length < 3 then some (.code read (c :: digits), [])
    else (codeChar? (c :: digits)).map fun char => (.text (char :: read), [])
  | .block read escaped quotes, c => blockStep read escaped quotes c

/-- The tokens that the end of the text completes; fails inside a text or after a dot. -/
def finish : State → Option (List Token)
  | .between => some []
  | .comment => some []
  | .name read => some [.name (textOf read)]
  | .number read => (ofNumber? read.reverse).map ([·])
  | .quotes => some [.string ""]
  | _ => none

/-- Reads characters one by one. -/
def run (state : State) : List Char → Step
  | [] => some (state, [])
  | c :: cs => do
    let (next, tokens) ← step state c
    let (last, others) ← run next cs
    return (last, tokens ++ others)

/-- A text is read by reading its parts one after another. -/
theorem run_append (state : State) (xs ys : List Char) :
    run state (xs ++ ys) = (do
      let (next, tokens) ← run state xs
      let (last, others) ← run next ys
      return (last, tokens ++ others)) := by
  induction xs generalizing state with
  | nil => cases h : run state ys <;> simp [run, h]
  | cons c cs ih =>
    simp only [List.cons_append, run]
    cases step state c with
    | none => rfl
    | some next =>
      simp only [Option.bind_eq_bind, Option.bind_some, ih, Option.pure_def, Option.bind_assoc]
      cases run next.1 cs with
      | none => rfl
      | some last => simp [List.append_assoc]

end Lexer

/-- The tokens of a text; `none` where some part of it is no token. -/
def Token.scan? (text : String) : Option (List Token) := do
  let (state, tokens) ← Lexer.run .between text.toList
  return tokens ++ (← Lexer.finish state)

end ClientSdk
