import ClientSdk.Error
import ClientSdk.Text.IdentifierTable
import ClientSdk.Text.Words

/-!
# Identifiers of Generated Code

Every name of a schema or an operation that occurs in generated Rust code is spelled by the
conventions of that language: fields, parameters and modules in snake case, types in Pascal
case. A spelling that is a keyword becomes a raw identifier, and the four keywords that no raw
identifier can spell get an underscore. A spelling that is no identifier has no form in the
code at all.

## Main definitions

* `Ident`: an identifier, raw or plain.
* `Ident.ofValueName`, `Ident.ofTypeName`: the identifier of a name.
* `moduleName`: the name of the module and the file of an operation.
-/

namespace ClientSdk

/-- An identifier of generated code. -/
structure Ident where
  /-- Its letters. -/
  text : String
  /-- It is written with the mark of raw identifiers. -/
  raw : Bool := false
  deriving DecidableEq, Repr, Inhabited

namespace Ident

/-- The identifier as it is written. -/
def spelling (ident : Ident) : String := if ident.raw then "r#" ++ ident.text else ident.text

/-- Keywords that are written as raw identifiers. -/
def keywords : List String :=
  ["abstract", "as", "async", "await", "become", "box", "break", "const", "continue", "do",
   "dyn", "else", "enum", "extern", "false", "final", "fn", "for", "gen", "if", "impl", "in",
   "let", "loop", "macro", "match", "mod", "move", "mut", "override", "priv", "pub", "ref",
   "return", "static", "struct", "trait", "true", "try", "type", "typeof", "unsafe", "unsized",
   "use", "virtual", "where", "while", "yield"]

/-- Keywords that cannot be raw identifiers. -/
def pathKeywords : List String := ["self", "Self", "super", "crate"]

/-- `cs` is an identifier, keywords included: it begins with an underscore or a character that
may begin identifiers, and goes on with characters that may continue them. -/
def isIdentifier : List Char → Bool
  | [] => false
  | c :: cs => (c == '_' || Text.isIdentifierStart c) && cs.all Text.isIdentifierContinue

/-- The identifier with the given spelling in the conventions of the language. -/
def ofSpelling (text : String) : Except GenerationError Ident :=
  if text ∈ pathKeywords then .ok { text := text ++ "_" }
  else if text ∈ keywords then .ok { text := text, raw := true }
  else if isIdentifier text.toList then .ok { text := text }
  else .error (.notAnIdentifier text)

/-- The identifier of a field, a parameter or a module. -/
def ofValueName (name : String) : Except GenerationError Ident :=
  ofSpelling (Text.snakeCase name)

/-- The identifier of a type. -/
def ofTypeName (name : String) : Except GenerationError Ident :=
  ofSpelling (Text.pascalCase name)

end Ident

/-- The name of the module of an operation, which is also the stem of its file: the identifier
of the operation without the mark of raw identifiers. -/
def moduleName (operation : String) : Except GenerationError String :=
  Ident.text <$> Ident.ofValueName operation

end ClientSdk
