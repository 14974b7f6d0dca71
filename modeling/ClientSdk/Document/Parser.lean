import ClientSdk.Document
import ClientSdk.Document.Token.Lexer

/-!
# Reading Documents

The grammar of schema and operation documents, as functions from a list of tokens to a tree and
the tokens after it. Every part of a document takes at least one token, so the number of tokens
bounds both the nesting and the length of every list; it is the fuel of all recursion here.

## Main definitions

* `Parser`: a reader of tokens.
* `Document.parse?`: the document of a text.
-/

namespace ClientSdk

/-- A reader of tokens: what it reads, and the tokens that are left. -/
abbrev Parser := StateT (List Token) Option

namespace Parser

/-! ### Single tokens -/

/-- The next token, which stays unread. -/
def peek? : Parser (Option Token) := fun tokens => some (tokens.head?, tokens)

/-- Reads a token. -/
def next : Parser Token
  | [] => none
  | token :: tokens => some (token, tokens)

/-- Reads `token` if it is next, and says whether it was. -/
def accept (token : Token) : Parser Bool
  | [] => some (false, [])
  | first :: tokens => some (if first = token then (true, tokens) else (false, first :: tokens))

/-- Reads `token`. -/
def expect (token : Token) : Parser Unit := do
  if ← accept token then return () else failure

/-- Reads a name. -/
def name : Parser String := do
  match ← next with
  | .name text => return text
  | _ => failure

/-- Reads a text if one is next. -/
def text? : Parser (Option String)
  | .string text :: tokens => some (some text, tokens)
  | tokens => some (none, tokens)

/-! ### Lists -/

/-- Reads items up to the token `closing`, which is read too. -/
def itemsTo {α : Type} (closing : Token) (item : Parser α) : Nat → Parser (List α)
  | 0 => failure
  | fuel + 1 => do
    if ← accept closing then return []
    let first ← item
    return first :: (← itemsTo closing item fuel)

/-- Reads one item or more between two punctuation characters. -/
def block {α : Type} (fuel : Nat) (opening closing : Char) (item : Parser α) :
    Parser (List α) := do
  expect (.punctuator opening)
  let first ← item
  return first :: (← itemsTo (.punctuator closing) item fuel)

/-- Reads items between two punctuation characters, or nothing where the first of them is not
next. -/
def block? {α : Type} (fuel : Nat) (opening closing : Char) (item : Parser α) :
    Parser (List α) := do
  if (← peek?) = some (.punctuator opening) then block fuel opening closing item
  else return []

/-- Reads items, each with the token `mark` before it. -/
def marked {α : Type} (mark : Token) (item : Parser α) : Nat → Parser (List α)
  | 0 => failure
  | fuel + 1 => do
    if ← accept mark then
      let first ← item
      return first :: (← marked mark item fuel)
    else return []

/-- Reads one item or more with the token `mark` between them; one before the first is
allowed. -/
def separated {α : Type} (fuel : Nat) (mark : Token) (item : Parser α) : Parser (List α) := do
  let _ ← accept mark
  let first ← item
  return first :: (← marked mark item fuel)

/-! ### Types and values -/

/-- Reads a type. -/
def type : Nat → Parser TypeRef
  | 0 => failure
  | fuel + 1 => do
    if ← accept (.punctuator '[') then
      let element ← type fuel
      expect (.punctuator ']')
      return .list element (!(← accept (.punctuator '!')))
    else
      let name ← name
      return .named name (!(← accept (.punctuator '!')))

/-- The value that a name denotes. -/
def namedValue (name : String) : Value :=
  if name = "true" then .boolean true
  else if name = "false" then .boolean false
  else if name = "null" then .null
  else .enum name

/-- Reads a named item: a name, a colon and the item. -/
def labelled {α : Type} (item : Parser α) : Parser (String × α) := do
  let name ← name
  expect (.punctuator ':')
  return (name, ← item)

/-- Reads a value. A constant value holds no variables. -/
def value (constant : Bool) : Nat → Parser Value
  | 0 => failure
  | fuel + 1 => do
    match ← next with
    | .int text => return .int text
    | .float text => return .float text
    | .string text => return .string text
    | .name name => return namedValue name
    | .punctuator '$' => if constant then failure else return .variableRef (← name)
    | .punctuator '[' =>
      return .list (← itemsTo (.punctuator ']') (value constant fuel) fuel)
    | .punctuator '{' =>
      return .object (← itemsTo (.punctuator '}') (labelled (value constant fuel)) fuel)
    | _ => failure

/-- Reads arguments, if there are any. -/
def arguments (constant : Bool) (fuel : Nat) : Parser (List (String × Value)) :=
  block? fuel '(' ')' (labelled (value constant fuel))

/-- Reads directives, if there are any. -/
def directives (constant : Bool) (fuel : Nat) : Parser (List Directive) :=
  marked (.punctuator '@')
    (do
      let name ← name
      return { name, arguments := ← arguments constant fuel })
    fuel

/-- Reads a default value, if there is one. -/
def default? (fuel : Nat) : Parser (Option Value) := do
  if ← accept (.punctuator '=') then return some (← value true fuel) else return none

/-! ### Schema documents -/

/-- Reads an argument or a field of an input type. -/
def inputDecl (fuel : Nat) : Parser InputDecl := do
  let description ← text?
  let (name, type) ← labelled (type fuel)
  let default ← default? fuel
  return { description, name, type, default, directives := ← directives true fuel }

/-- Reads a field of an object or interface type. -/
def fieldDecl (fuel : Nat) : Parser FieldDecl := do
  let description ← text?
  let name ← name
  let arguments ← block? fuel '(' ')' (inputDecl fuel)
  expect (.punctuator ':')
  let type ← type fuel
  return { description, name, arguments, type, directives := ← directives true fuel }

/-- Reads a value of an enumeration. -/
def enumValue (fuel : Nat) : Parser String := do
  let _ ← text?
  let name ← name
  let _ ← directives true fuel
  if name ∈ ["true", "false", "null"] then failure else return name

/-- Reads the interfaces that a type implements, if it does. -/
def interfaces (fuel : Nat) : Parser (List String) := do
  if ← accept (.name "implements") then separated fuel (.punctuator '&') name else return []

/-- Reads the members of a union, if there are any. -/
def members (fuel : Nat) : Parser (List String) := do
  if ← accept (.punctuator '=') then separated fuel (.punctuator '|') name else return []

/-- Reads what stands after the keyword of a type declaration. -/
def typeDecl (fuel : Nat) (description : Option String) (keyword : String) :
    Parser TypeDecl := do
  let name ← name
  match keyword with
  | "scalar" =>
    return { description, name, directives := ← directives true fuel, body := .scalar }
  | "type" =>
    let interfaces ← interfaces fuel
    let directives ← directives true fuel
    let fields ← block? fuel '{' '}' (fieldDecl fuel)
    return { description, name, directives, body := .object interfaces fields }
  | "interface" =>
    let interfaces ← interfaces fuel
    let directives ← directives true fuel
    let fields ← block? fuel '{' '}' (fieldDecl fuel)
    return { description, name, directives, body := .interface interfaces fields }
  | "union" =>
    let directives ← directives true fuel
    return { description, name, directives, body := .union (← members fuel) }
  | "enum" =>
    let directives ← directives true fuel
    let values ← block? fuel '{' '}' (enumValue fuel)
    return { description, name, directives, body := .enum values }
  | "input" =>
    let directives ← directives true fuel
    let fields ← block? fuel '{' '}' (inputDecl fuel)
    return { description, name, directives, body := .input fields }
  | _ => failure

/-- The keywords that declare types. -/
def typeKeywords : List String := ["scalar", "type", "interface", "union", "enum", "input"]

/-- Something is declared besides the name. -/
def addsToType (declaration : TypeDecl) : Bool :=
  !declaration.directives.isEmpty ||
    match declaration.body with
    | .scalar => false
    | .object interfaces fields => !interfaces.isEmpty || !fields.isEmpty
    | .interface interfaces fields => !interfaces.isEmpty || !fields.isEmpty
    | .union members => !members.isEmpty
    | .enum values => !values.isEmpty
    | .input fields => !fields.isEmpty

/-- Reads the keyword of a root. -/
def rootKind : Parser RootKind := do
  match RootKind.ofKeyword? (← name) with
  | some kind => return kind
  | none => failure

/-- Reads a root of the schema. -/
def root : Parser (RootKind × String) := do
  let kind ← rootKind
  expect (.punctuator ':')
  return (kind, ← name)

/-- The places where directives may stand. -/
def directiveLocations : List String :=
  ["QUERY", "MUTATION", "SUBSCRIPTION", "FIELD", "FRAGMENT_DEFINITION", "FRAGMENT_SPREAD",
   "INLINE_FRAGMENT", "VARIABLE_DEFINITION", "SCHEMA", "SCALAR", "OBJECT", "FIELD_DEFINITION",
   "ARGUMENT_DEFINITION", "INTERFACE", "UNION", "ENUM", "ENUM_VALUE", "INPUT_OBJECT",
   "INPUT_FIELD_DEFINITION"]

/-- Reads a place where a directive may stand. -/
def directiveLocation : Parser String := do
  let location ← name
  if location ∈ directiveLocations then return location else failure

/-- Reads what stands after the keyword of a directive declaration. -/
def directiveDecl (fuel : Nat) : Parser DirectiveDecl := do
  expect (.punctuator '@')
  let name ← name
  let arguments ← block? fuel '(' ')' (inputDecl fuel)
  let repeatable ← accept (.name "repeatable")
  expect (.name "on")
  let locations ← separated fuel (.punctuator '|') directiveLocation
  return { name, arguments, repeatable, locations }

/-- Reads a definition of a schema document that begins with `keyword`. -/
def schemaDefinition (fuel : Nat) (description : Option String) (keyword : String) :
    Parser Definition := do
  if keyword = "schema" then
    let directives ← directives true fuel
    return .schema directives (← block fuel '{' '}' root)
  else if keyword = "directive" then return .directive (← directiveDecl fuel)
  else if keyword ∈ typeKeywords then return .type (← typeDecl fuel description keyword)
  else failure

/-- Reads what stands after the keyword of an extension. An extension adds something. -/
def extension (fuel : Nat) : Parser Definition := do
  let keyword ← name
  if keyword = "schema" then
    let directives ← directives true fuel
    let roots ← block? fuel '{' '}' root
    if directives.isEmpty && roots.isEmpty then failure
    else return .schemaExtension directives roots
  else if keyword ∈ typeKeywords then
    let declaration ← typeDecl fuel none keyword
    if addsToType declaration then return .typeExtension declaration else failure
  else failure

/-! ### Operation documents -/

/-- Reads a variable declaration. -/
def variableDecl (fuel : Nat) : Parser VariableDecl := do
  expect (.punctuator '$')
  let (name, type) ← labelled (type fuel)
  let default ← default? fuel
  return { name, type, default, directives := ← directives true fuel }

/-- Reads a name that may name a fragment. -/
def fragmentName : Parser String := do
  let name ← name
  if name = "on" then failure else return name

/-- Reads an entry of a selection set. -/
def selection : Nat → Parser SelectionDecl
  | 0 => failure
  | fuel + 1 => do
    if ← accept .spread then
      if ← accept (.name "on") then
        let condition ← name
        let directives ← directives false fuel
        return .inlineFragment (some condition) directives
          (← block fuel '{' '}' (selection fuel))
      else
        match ← peek? with
        | some (.name _) =>
          let fragment ← fragmentName
          return .spread fragment (← directives false fuel)
        | _ =>
          let directives ← directives false fuel
          return .inlineFragment none directives (← block fuel '{' '}' (selection fuel))
    else
      let first ← name
      let second ←
        if ← accept (.punctuator ':') then some <$> name else pure none
      let arguments ← arguments false fuel
      let directives ← directives false fuel
      let selections ← block? fuel '{' '}' (selection fuel)
      return match second with
        | some name => .field (some first) name arguments directives selections
        | none => .field none first arguments directives selections

/-- Reads a selection set. -/
def selectionSet (fuel : Nat) : Parser (List SelectionDecl) :=
  block fuel '{' '}' (selection fuel)

/-- Reads what stands after the keyword of an operation. -/
def operationDecl (fuel : Nat) (kind : RootKind) : Parser OperationDecl := do
  let name ←
    match ← peek? with
    | some (.name _) => some <$> name
    | _ => pure none
  let vars ← block? fuel '(' ')' (variableDecl fuel)
  let directives ← directives false fuel
  return { kind, name, vars, directives, selections := ← selectionSet fuel }

/-- Reads what stands after the keyword of a fragment. -/
def fragmentDecl (fuel : Nat) : Parser FragmentDecl := do
  let name ← fragmentName
  expect (.name "on")
  let typeCondition ← Parser.name
  let directives ← directives false fuel
  return { name, typeCondition, directives, selections := ← selectionSet fuel }

/-! ### Documents -/

/-- Reads a definition. Only definitions of a schema may have a description. -/
def definition (fuel : Nat) : Parser Definition := do
  match ← peek? with
  | some (.punctuator _) =>
    return .operation { kind := .query, selections := ← selectionSet fuel }
  | some (.string _) =>
    let description ← text?
    schemaDefinition fuel description (← name)
  | _ =>
    let keyword ← name
    if keyword = "extend" then extension fuel
    else if keyword = "fragment" then return .fragment (← fragmentDecl fuel)
    else
      match RootKind.ofKeyword? keyword with
      | some kind => return .operation (← operationDecl fuel kind)
      | none => schemaDefinition fuel none keyword

/-- Reads definitions up to the end of the tokens. -/
def definitions (fuel : Nat) : Nat → Parser Document
  | 0 => failure
  | count + 1 => do
    let first ← definition fuel
    if (← peek?).isNone then return [first]
    return first :: (← definitions fuel count)

end Parser

/-- The document of a text: one definition or more. -/
def Document.parse? (text : String) : Option Document := do
  let tokens ← Token.scan? text
  let fuel := tokens.length + 1
  let (document, _) ← Parser.definitions fuel fuel tokens
  return document

end ClientSdk
