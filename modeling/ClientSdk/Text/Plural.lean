import ClientSdk.Text.Case

/-!
# English Plurals

The plural of a noun in lowercase. The rules form a small table: uncountable nouns, irregular
nouns, then rules on the ending of the word.

## Main definitions

* `plural`: the plural of a lowercase noun.
-/

namespace ClientSdk.Text

/-- Nouns whose plural follows no rule on endings. -/
def irregularPlurals : List (String × String) :=
  [("person", "people"), ("man", "men"), ("woman", "women"), ("child", "children"),
   ("mouse", "mice"), ("goose", "geese"), ("tooth", "teeth"), ("foot", "feet"),
   ("ox", "oxen"), ("quiz", "quizzes"), ("criterion", "criteria"), ("datum", "data")]

/-- Nouns whose plural is the singular. -/
def uncountableNouns : List String :=
  ["data", "equipment", "feedback", "fish", "information", "metadata", "news", "series",
   "sheep", "species"]

/-- Nouns in `f` or `fe` whose plural ends in `ves`. -/
def nounsInVes : List String :=
  ["calf", "half", "knife", "leaf", "life", "loaf", "shelf", "thief", "wife", "wolf"]

/-- Nouns in `o` whose plural ends in `oes`. -/
def nounsInOes : List String := ["echo", "hero", "potato", "tomato", "veto"]

/-- The five vowels. -/
def isVowel (c : Char) : Bool := c ∈ ['a', 'e', 'i', 'o', 'u']

/-- `word` without the ending `suffix`, when it has that ending. -/
def dropEnding? (word suffix : List Char) : Option (List Char) :=
  if suffix.isSuffixOf word then some (word.take (word.length - suffix.length)) else none

/-- The plural formed by the rules on endings. -/
def pluralByEnding (word : String) : String :=
  let cs := word.toList
  match dropEnding? cs ['s', 'i', 's'] with
  | some stem => String.ofList stem ++ "ses"
  | none =>
    if [['s'], ['x'], ['z'], ['c', 'h'], ['s', 'h']].any (·.isSuffixOf cs) then word ++ "es"
    else match (dropEnding? cs ['y']).filter fun stem => stem.getLast?.any (!isVowel ·) with
      | some stem => String.ofList stem ++ "ies"
      | none =>
        if word ∈ nounsInVes then
          let stem := (dropEnding? cs ['f', 'e'] <|> dropEnding? cs ['f']).getD cs
          String.ofList stem ++ "ves"
        else if word ∈ nounsInOes then word ++ "es"
        else word ++ "s"

/-- The plural of a lowercase noun. The empty word stays empty. -/
def plural (word : String) : String :=
  if word = "" then ""
  else if word ∈ uncountableNouns then word
  else (irregularPlurals.lookup word).getD (pluralByEnding word)

end ClientSdk.Text
