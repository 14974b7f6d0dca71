/-!
# JSON Values

JSON values with the members of objects in the order in which they are written, and their two
printed forms.

## Main definitions

* `Json`: the values.
* `Json.compact`: printed without blanks.
* `Json.pretty`: printed over several lines, two blanks for each level.
-/

namespace ClientSdk

/-- A JSON value. Numbers are kept as they are written, and an object may repeat a key. -/
inductive Json where
  /-- The null value. -/
  | null
  /-- A truth value. -/
  | bool (value : Bool)
  /-- A number, as written. -/
  | number (text : String)
  /-- A text. -/
  | string (text : String)
  /-- A list of values. -/
  | array (items : List Json)
  /-- Keys with values. -/
  | object (members : List (String × Json))
  deriving Inhabited

namespace Json

/-- The whole number `n`. -/
def nat (n : Nat) : Json := number (toString n)

/-- The text, or null where there is none. -/
def ofOption : Option String → Json
  | some text => string text
  | none => null

/-- A list of texts. -/
def strings (texts : List String) : Json := array (texts.map string)

/-! ### Printing -/

/-- A hexadecimal digit. -/
def hexDigit (n : Nat) : Char := if n < 10 then Char.ofNat (48 + n) else Char.ofNat (87 + n)

/-- A character inside quotes: quotes, backslashes and control characters are escaped. -/
def quoteChar (c : Char) : List Char :=
  if c = '"' then ['\\', '"']
  else if c = '\\' then ['\\', '\\']
  else if c = '\n' then ['\\', 'n']
  else if c = '\r' then ['\\', 'r']
  else if c = '\t' then ['\\', 't']
  else if c.toNat = 8 then ['\\', 'b']
  else if c.toNat = 12 then ['\\', 'f']
  else if c.toNat < 32 then ['\\', 'u', '0', '0', hexDigit (c.toNat / 16), hexDigit (c.toNat % 16)]
  else [c]

/-- A text in quotes. -/
def quote (text : String) : String :=
  "\"" ++ String.ofList (text.toList.flatMap quoteChar) ++ "\""

mutual

/-- The value without blanks between its parts. -/
def compact : Json → String
  | null => "null"
  | bool value => if value then "true" else "false"
  | number text => text
  | string text => quote text
  | array items => "[" ++ ",".intercalate (compactItems items) ++ "]"
  | object members => "\x7b" ++ ",".intercalate (compactMembers members) ++ "\x7d"

/-- The items of a list without blanks. -/
def compactItems : List Json → List String
  | [] => []
  | item :: items => item.compact :: compactItems items

/-- The members of an object without blanks. -/
def compactMembers : List (String × Json) → List String
  | [] => []
  | (key, value) :: members => (quote key ++ ":" ++ value.compact) :: compactMembers members

end

/-- Parts between brackets, each on a line of its own, indented by `indent`; the closing bracket
is indented by `outer`. Without parts, the brackets stand together. -/
def block (opening closing outer indent : String) (parts : List String) : String :=
  if parts.isEmpty then opening ++ closing
  else
    opening ++ "\n" ++ ",\n".intercalate (parts.map (indent ++ ·)) ++ "\n" ++ outer ++ closing

mutual

/-- The value over several lines; the lines after the first are indented by `indent` and two
blanks for each level. -/
def prettyFrom (indent : String) : Json → String
  | null => "null"
  | bool value => if value then "true" else "false"
  | number text => text
  | string text => quote text
  | array items => block "[" "]" indent (indent ++ "  ") (prettyItems (indent ++ "  ") items)
  | object members =>
    block "\x7b" "\x7d" indent (indent ++ "  ") (prettyMembers (indent ++ "  ") members)

/-- The items of a list over several lines. -/
def prettyItems (indent : String) : List Json → List String
  | [] => []
  | item :: items => item.prettyFrom indent :: prettyItems indent items

/-- The members of an object over several lines. -/
def prettyMembers (indent : String) : List (String × Json) → List String
  | [] => []
  | (key, value) :: members =>
    (quote key ++ ": " ++ value.prettyFrom indent) :: prettyMembers indent members

end

/-- The value over several lines, two blanks for each level. -/
def pretty (value : Json) : String := value.prettyFrom ""

end Json

end ClientSdk
