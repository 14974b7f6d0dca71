import ClientSdk.Emit.Ident

/-!
# Package Paths

The path of the module that generated code goes into, such as `crate::sdk`. A path is written as
identifiers with double colons between them, and blanks and comments are allowed around each of
them. Keywords are no identifiers, except for those that name modules; a raw identifier may spell
most of them. An identifier may have type arguments in angle brackets.

## Main definitions

* `PackagePath`, `PackagePath.parse`.
-/

namespace ClientSdk

/-- An identifier of a path, with what stands in angle brackets after it. -/
structure PathSegment where
  /-- The identifier. -/
  ident : Ident
  /-- The tokens from the opening to the closing angle bracket, if there are any. -/
  arguments : List String := []
  /-- Double colons stand before the opening angle bracket. -/
  colons : Bool := false
  deriving DecidableEq, Repr, Inhabited

/-- A path of a module. -/
structure PackagePath where
  /-- Double colons stand in front. -/
  leadingColons : Bool := false
  /-- The identifiers of the path. -/
  segments : List PathSegment
  deriving DecidableEq, Repr, Inhabited

namespace PackagePath

/-! ### Tokens -/

/-- A lexical unit of a path. -/
inductive Token where
  /-- An identifier, a keyword or an underscore. -/
  | ident (ident : Ident)
  /-- Two colons. -/
  | colons
  /-- A whole number. -/
  | number (digits : String)
  /-- The name of a lifetime, with its quote. -/
  | lifetime (name : String)
  /-- Another character that may stand in angle brackets. -/
  | symbol (char : Char)
  deriving DecidableEq, Repr

/-- `c` is a blank or ends a line. -/
def isBlank (c : Char) : Bool :=
  c == ' ' || (9 ≤ c.toNat && c.toNat ≤ 13) ||
    [0x85, 0x200E, 0x200F, 0x2028, 0x2029].contains c.toNat

/-- `c` may begin an identifier or a keyword. -/
def isStart (c : Char) : Bool := c == '_' || Text.isIdentifierStart c

/-- What follows the comment that begins with two slashes; fails for documentation. -/
def afterLineComment? : List Char → Option (List Char)
  | '!' :: _ => none
  | '/' :: '/' :: rest => some (rest.dropWhile (· != '\n'))
  | '/' :: _ => none
  | rest => some (rest.dropWhile (· != '\n'))

/-- What follows the comment, when `depth` comments that begin with a slash and a star are
open. -/
def afterBlockComment? : Nat → List Char → Option (List Char)
  | 0, rest => some rest
  | depth + 1, '*' :: '/' :: rest => afterBlockComment? depth rest
  | depth + 1, '/' :: '*' :: rest => afterBlockComment? (depth + 2) rest
  | depth + 1, _ :: rest => afterBlockComment? (depth + 1) rest
  | _, [] => none

/-- A comment that begins with a slash and a star is documentation. -/
def isDocumentation : List Char → Bool
  | '!' :: _ => true
  | '*' :: '*' :: _ => false
  | '*' :: '/' :: _ => false
  | '*' :: _ => true
  | _ => false

/-- The token that begins with the given character, and what follows it. -/
def token? (c : Char) (rest : List Char) : Option (Token × List Char) :=
  if c = ':' then
    match rest with
    | ':' :: rest => some (.colons, rest)
    | _ => none
  else if isStart c then
    let name := c :: rest.takeWhile Text.isIdentifierContinue
    let after := rest.dropWhile Text.isIdentifierContinue
    match name, after with
    | ['r'], '#' :: d :: rest =>
      let raw := String.ofList (d :: rest.takeWhile Text.isIdentifierContinue)
      if isStart d && !("_" :: Ident.pathKeywords).contains raw then
        some (.ident { text := raw, raw := true }, rest.dropWhile Text.isIdentifierContinue)
      else none
    | _, '"' :: _ => none
    | _, '#' :: _ => none
    | _, _ => some (.ident { text := String.ofList name }, after)
  else if c.isDigit then
    some (.number (String.ofList (c :: rest.takeWhile Text.isIdentifierContinue)),
      rest.dropWhile Text.isIdentifierContinue)
  else if c = '\'' then
    match rest with
    | d :: rest =>
      let after := rest.dropWhile Text.isIdentifierContinue
      if isStart d && after.head? != some '\'' then
        some (.lifetime (String.ofList (d :: rest.takeWhile Text.isIdentifierContinue)), after)
      else none
    | [] => none
  else if c ∈ ['<', '>', ',', '(', ')', '&'] then some (.symbol c, rest)
  else none

/-- The tokens of a text. Each step takes at least one character of it, which bounds the steps. -/
def tokensWithin : Nat → List Char → Option (List Token)
  | 0, _ => none
  | _, [] => some []
  | steps + 1, '/' :: '/' :: rest => do tokensWithin steps (← afterLineComment? rest)
  | steps + 1, '/' :: '*' :: rest =>
    if isDocumentation rest then none
    else do tokensWithin steps (← afterBlockComment? 1 rest)
  | steps + 1, c :: rest =>
    if isBlank c then tokensWithin steps rest
    else do
      let (token, rest) ← token? c rest
      return token :: (← tokensWithin steps rest)

/-- The tokens of a text. -/
def tokens? (text : String) : Option (List Token) :=
  tokensWithin (text.toList.length + 1) text.toList

/-! ### Paths -/

/-- Words that are no identifiers. -/
def reservedWords : List String :=
  ["_", "abstract", "as", "async", "await", "become", "box", "break", "const", "continue", "do",
   "dyn", "else", "enum", "extern", "false", "final", "fn", "for", "if", "impl", "in", "let",
   "loop", "macro", "match", "mod", "move", "mut", "override", "priv", "pub", "ref", "return",
   "static", "struct", "trait", "true", "type", "typeof", "unsafe", "unsized", "use", "virtual",
   "where", "while", "yield"]

/-- Keywords that may stand in a path and have no type arguments. -/
def moduleKeywords : List String := ["super", "self", "crate", "try"]

/-- The tokens of type arguments as they are written, character by character. -/
def Token.spellings : Token → List String
  | ident name => [name.spelling]
  | colons => [":", ":"]
  | number digits => [digits]
  | lifetime name => ["'", name]
  | symbol char => [char.toString]

/-- What is written from `tokens` on up to `after`. -/
def written (tokens after : List Token) : List String :=
  (tokens.take (tokens.length - after.length)).flatMap Token.spellings

mutual

/-- Reads a path, within a number of steps. -/
def readPath : Nat → List Token → Option (PackagePath × List Token)
  | 0, _ => none
  | steps + 1, .colons :: rest => do
    let (segments, rest) ← readSegments steps rest
    return ({ leadingColons := true, segments }, rest)
  | steps + 1, tokens => do
    let (segments, rest) ← readSegments steps tokens
    return ({ segments }, rest)

/-- Reads identifiers with double colons between them. -/
def readSegments : Nat → List Token → Option (List PathSegment × List Token)
  | 0, _ => none
  | steps + 1, tokens => do
    let (segment, rest) ← readSegment steps tokens
    match rest with
    | .colons :: .symbol '(' :: _ => return ([segment], rest)
    | .colons :: rest =>
      let (segments, rest) ← readSegments steps rest
      return (segment :: segments, rest)
    | rest => return ([segment], rest)

/-- Reads an identifier and its type arguments. -/
def readSegment : Nat → List Token → Option (PathSegment × List Token)
  | 0, _ => none
  | steps + 1, .ident ident :: rest =>
    if !ident.raw && moduleKeywords.contains ident.text then some ({ ident }, rest)
    else if !ident.raw && reservedWords.contains ident.text then none
    else
      match rest with
      | .symbol '<' :: args => do
        let after ← afterArguments steps args
        return ({ ident, arguments := written rest after }, after)
      | .colons :: .symbol '<' :: args => do
        let after ← afterArguments steps args
        return ({ ident, arguments := written (rest.drop 1) after, colons := true }, after)
      | rest => some ({ ident }, rest)
  | _, _ => none

/-- What follows type arguments, after the opening angle bracket. -/
def afterArguments : Nat → List Token → Option (List Token)
  | 0, _ => none
  | _, .symbol '>' :: rest => some rest
  | steps + 1, tokens => do
    match ← afterArgument steps tokens with
    | .symbol ',' :: rest => afterArguments steps rest
    | .symbol '>' :: rest => some rest
    | _ => none

/-- What follows a type argument: a lifetime, a number, an underscore, a path, or one of these
behind a reference sign. -/
def afterArgument : Nat → List Token → Option (List Token)
  | 0, _ => none
  | _, .lifetime _ :: rest => some rest
  | _, .number _ :: rest => some rest
  | _, .ident { text := "_", raw := false } :: rest => some rest
  | steps + 1, .symbol '&' :: rest => afterArgument steps rest
  | steps + 1, tokens => (readPath steps tokens).map Prod.snd

end

/-- The path that a text spells. -/
def parse? (text : String) : Option PackagePath := do
  let tokens ← tokens? text
  match ← readPath (3 * tokens.length + 3) tokens with
  | (path, []) => return path
  | _ => none

/-- The path that a text spells, or the error that it spells none. -/
def parse (text : String) : Except GenerationError PackagePath :=
  match parse? text with
  | some path => .ok path
  | none => .error (.invalidPackage text)

end PackagePath

end ClientSdk
