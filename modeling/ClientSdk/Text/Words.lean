import ClientSdk.Text.Case
import ClientSdk.Text.MarkTable

/-!
# Words of a Name

A name is cut into words where its spelling changes: at `_`, `-` and blanks, which are
dropped, between a lowercase and an uppercase letter, between a letter and a digit, and
before the last capital of a run of capitals that a lowercase letter follows
(`HTTPRequest` is `HTTP`, `Request`). Empty words are kept, so `a__b` has three words.
Joining the words again gives the two spellings that generated code uses.

A letter is counted together with the marks that attach to it.

## Main definitions

* `letters`: the characters of a text grouped with their marks.
* `words`: the words of a name.
* `snakeCase`, `pascalCase`: `release_year` and `ReleaseYear`.
-/

namespace ClientSdk.Text

/-- One letter as a reader sees it: a character together with the marks attached to it. -/
abbrev Letter : Type := List Char

namespace Letter

/-- Nothing attaches to a control character or line end. -/
def isControl (c : Char) : Bool := controlRanges.contains c

/-- `c` attaches to `prev`, the character before it: `c` is a mark, or `prev` a sign that
belongs to what follows; a control character takes no part. -/
def attaches (prev c : Char) : Bool :=
  !isControl prev && !isControl c && (markRanges.contains c || prependRanges.contains prev)

/-- Groups `cs` into letters; `current` is the letter being read, last character first. -/
def group (current : List Char) : List Char → List Letter
  | [] => if current.isEmpty then [] else [current.reverse]
  | c :: cs =>
    match current with
    | [] => group [c] cs
    | prev :: _ =>
      if attaches prev c then group (c :: current) cs else current.reverse :: group [c] cs

/-- The letter has two cases and is in uppercase. -/
def isUpper (l : Letter) : Bool := upperChars l != lowerChars l && l == upperChars l

/-- The letter has two cases and is in lowercase. -/
def isLower (l : Letter) : Bool := upperChars l != lowerChars l && l == lowerChars l

/-- The letter is a decimal digit of ASCII. -/
def isDigit (l : Letter) : Bool := l.all Char.isDigit

/-- The letter separates words and belongs to none. -/
def isSeparator (l : Letter) : Bool := l == ['_'] || l == ['-'] || l == [' ']

/-- A word ends after `l` when `rest` follows. -/
def endsWord (l : Letter) (rest : List Letter) : Bool :=
  match rest with
  | [] => false
  | next :: more =>
    (isLower l && isUpper next) || (isLower l && isDigit next) || (isUpper l && isDigit next) ||
    (isDigit l && (isLower next || isUpper next)) ||
    (isUpper l && isUpper next && more.head?.any isLower)

end Letter

/-- The letters of a text, in order. -/
def letters (s : String) : List Letter := Letter.group [] s.toList

/-- Cuts letters into words; `current` is the word being read, last letter first. -/
def splitWords (current : List Letter) : List Letter → List (List Letter)
  | [] => [current.reverse]
  | l :: rest =>
    if l.isSeparator then current.reverse :: splitWords [] rest
    else if l.endsWord rest then (l :: current).reverse :: splitWords [] rest
    else splitWords (l :: current) rest

/-- The words of a name, each as its letters. -/
def words (s : String) : List (List Letter) := splitWords [] (letters s)

/-- A word in lowercase. -/
def lowerWord (word : List Letter) : String := String.ofList (lowerChars word.flatten)

/-- A word with its first letter in uppercase and the others in lowercase. -/
def capitalWord : List Letter → String
  | [] => ""
  | first :: rest => String.ofList (upperChars first ++ lowerChars rest.flatten)

/-- The name in lowercase words joined by underscores: `releaseYear` is `release_year`. -/
def snakeCase (s : String) : String := "_".intercalate ((words s).map lowerWord)

/-- The name in capitalized words joined by nothing: `release_year` is `ReleaseYear`. -/
def pascalCase (s : String) : String := String.join ((words s).map capitalWord)

end ClientSdk.Text
