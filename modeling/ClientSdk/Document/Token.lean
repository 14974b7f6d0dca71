/-!
# Tokens of Documents

The lexical units of schema and operation documents: names, numbers, texts and punctuation.
What stands between them (blanks, line ends, commas, comments, byte order marks) has no token.

## Main definitions

* `Token`.
* `Token.ofNumber?`: the token of a written number.
* `Token.dedent`: the text of a block of lines, without the indentation they share.
-/

namespace ClientSdk

/-- A lexical unit of a document. -/
inductive Token where
  /-- A punctuation character. -/
  | punctuator (char : Char)
  /-- Three dots. -/
  | spread
  /-- A name. -/
  | name (text : String)
  /-- A whole number, as written. -/
  | int (text : String)
  /-- A number with a fraction or an exponent, as written. -/
  | float (text : String)
  /-- A text, without its quotes and with its escapes replaced. -/
  | string (text : String)
  deriving DecidableEq, Repr, Inhabited

namespace Token

/-! ### Character classes -/

/-- `c` ends a line. -/
def isLineEnd (c : Char) : Bool := c == '\n' || c == '\r'

/-- `c` may stand between tokens and has no meaning there. -/
def isIgnored (c : Char) : Bool :=
  c == ' ' || c == '\t' || c == ',' || isLineEnd c || c == '\uFEFF'

/-- The punctuation characters that are tokens by themselves. -/
def punctuators : List Char := ['!', '$', '&', '(', ')', ':', '=', '@', '[', ']', '{', '|', '}']

/-- `c` may begin a name. Names use letters of ASCII only. -/
def isNameStart (c : Char) : Bool := c.isAlpha || c == '_'

/-- `c` may continue a name. -/
def isNameContinue (c : Char) : Bool := isNameStart c || c.isDigit

/-- `text` is a name. -/
def isName (text : String) : Bool :=
  match text.toList with
  | [] => false
  | c :: cs => isNameStart c && cs.all isNameContinue

/-! ### Numbers -/

/-- The digits in front, and what follows them; fails where there is no digit. -/
def digits? (cs : List Char) : Option (List Char × List Char) :=
  let digits := cs.takeWhile Char.isDigit
  if digits.isEmpty then none else some (digits, cs.dropWhile Char.isDigit)

/-- The characters after the whole part of a number, without a sign: the part may have no
leading zero. -/
def afterWhole? (cs : List Char) : Option (List Char) :=
  match digits? cs with
  | some (['0'], rest) => some rest
  | some ('0' :: _ :: _, _) => none
  | some (_, rest) => some rest
  | none => none

/-- The characters after the fraction of a number, if it has one. -/
def afterFraction? : List Char → Option (List Char)
  | '.' :: rest => (digits? rest).map Prod.snd
  | rest => some rest

/-- The characters after the exponent of a number, if it has one. -/
def afterExponent? : List Char → Option (List Char)
  | c :: rest =>
    if c = 'e' ∨ c = 'E' then
      match rest with
      | '+' :: digits => (digits? digits).map Prod.snd
      | '-' :: digits => (digits? digits).map Prod.snd
      | digits => (digits? digits).map Prod.snd
    else some (c :: rest)
  | [] => some []

/-- The number without its sign. -/
def unsigned : List Char → List Char
  | '-' :: rest => rest
  | cs => cs

/-- The token of a number that is written `cs`. -/
def ofNumber? (cs : List Char) : Option Token := do
  let afterWhole ← afterWhole? (unsigned cs)
  if afterWhole.isEmpty then return int (String.ofList cs)
  let rest ← afterExponent? (← afterFraction? afterWhole)
  if rest.isEmpty then return float (String.ofList cs) else none

/-! ### Blocks of lines -/

/-- Splits a text into lines. A carriage return with a line feed after it ends one line. -/
def lines : List Char → List (List Char)
  | [] => [[]]
  | '\r' :: '\n' :: rest => [] :: lines rest
  | c :: rest =>
    if isLineEnd c then [] :: lines rest
    else
      match lines rest with
      | [] => [[c]]
      | line :: others => (c :: line) :: others

/-- `c` indents a line. -/
def isIndent (c : Char) : Bool := c == ' ' || c == '\t'

/-- The number of characters that indent a line. -/
def indentation (line : List Char) : Nat := (line.takeWhile isIndent).length

/-- The line holds nothing but indentation. -/
def isBlank (line : List Char) : Bool := line.all isIndent

/-- The indentation that all lines share which are not blank; `none` where all are blank. -/
def commonIndentation (lines : List (List Char)) : Option Nat :=
  ((lines.filter fun line => !isBlank line).map indentation).min?

/-- The lines without the blank ones at either end. -/
def trimBlankLines (lines : List (List Char)) : List (List Char) :=
  ((lines.dropWhile isBlank).reverse.dropWhile isBlank).reverse

/-- The text of a block: the lines after the first lose the indentation they share, then blank
lines at either end are left out. -/
def dedent (cs : List Char) : String :=
  let all := lines cs
  let common := (commonIndentation all.tail).getD 0
  let dedented := all.take 1 ++ all.tail.map (·.drop common)
  String.ofList (List.intercalate ['\n'] (trimBlankLines dedented))

end Token

end ClientSdk
