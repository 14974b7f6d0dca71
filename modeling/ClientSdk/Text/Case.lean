import ClientSdk.Text.CaseTable

/-!
# Letter Case

Full Unicode case conversion of texts. A character may become several characters
(`ß` uppercases to `SS`, `İ` lowercases to `i` and a combining dot), and a capital sigma
lowercases to its final form at the end of a word.

## Main definitions

* `lower`, `upper`: a text in lowercase and in uppercase.
* `isFinalSigma`: the context in which a capital sigma takes its final form.
-/

namespace ClientSdk.Text

/-- The lowercase form of one character, whatever stands around it. -/
def lowerChar (c : Char) : List Char :=
  if c.toNat < 128 then [c.toLower]
  else if c == 'İ' then ['i', Char.ofNat 0x307]
  else [(lowerRuns.image? c).getD c]

/-- The uppercase form of one character. -/
def upperChar (c : Char) : List Char :=
  if c.toNat < 128 then [c.toUpper]
  else match upperExpansions.lookup c.toNat with
    | some codes => codes.map Char.ofNat
    | none => [(upperRuns.image? c).getD c]

/-- `c` is a cased letter. -/
def isCased (c : Char) : Bool :=
  if c.toNat < 128 then c.isAlpha else casedRanges.contains c

/-- The first character of `cs` that is not case-ignorable is a cased letter. -/
def meetsCased (cs : List Char) : Bool :=
  match cs.dropWhile caseIgnorableRanges.contains with
  | c :: _ => isCased c
  | [] => false

/-- A capital sigma between `before` (nearest character first) and `after` ends a word: a
cased letter comes before it and none comes after it, case-ignorable characters left aside. -/
def isFinalSigma (before after : List Char) : Bool :=
  meetsCased before && !meetsCased after

/-- Lowercases `cs`, given the characters before it, nearest first. -/
def lowerFrom (before : List Char) : List Char → List Char
  | [] => []
  | c :: cs =>
    let image := if c == 'Σ' then [if isFinalSigma before cs then 'ς' else 'σ'] else lowerChar c
    image ++ lowerFrom (c :: before) cs

/-- Lowercases a list of characters that stands alone. -/
def lowerChars (cs : List Char) : List Char := lowerFrom [] cs

/-- Uppercases a list of characters. -/
def upperChars (cs : List Char) : List Char := cs.flatMap upperChar

/-- The text in lowercase. -/
def lower (s : String) : String := String.ofList (lowerChars s.toList)

/-- The text in uppercase. -/
def upper (s : String) : String := String.ofList (upperChars s.toList)

end ClientSdk.Text
