import ClientSdk.Emit.Package

/-!
# Generated Code

The part of the target language that generated files are made of: structures with constructors,
modules, and functions whose bodies only call constructors. A file is a list of items; it can be
written as a plain list of tokens, and most but not all files obey the rules of the language.

## Main definitions

* `Code.Ty`, `Code.Expr`, `Code.Function`, `Code.Item`, `Code.File`.
* `Code.File.tokens`: the tokens of a file.
* `Code.File.isValid`: the file obeys the rules of the language.
-/

namespace ClientSdk

/-- The identifier that is written `text`. -/
def Ident.plain (text : String) : Ident := { text }

/-- The identifier is an underscore, which names nothing. -/
def Ident.isUnderscore (ident : Ident) : Bool := ident.text == "_"

namespace Code

/-! ### Syntax -/

/-- A type. -/
inductive Ty where
  /-- The type with one value. -/
  | unit
  /-- A type by its path. -/
  | path (segments : List Ident)
  /-- A type constructor on a type. -/
  | apply (constructor : Ident) (argument : Ty)
  deriving Inhabited

/-- An expression. -/
inductive Expr where
  /-- The value of a parameter. -/
  | name (ident : Ident)
  /-- A call of the function at a path. -/
  | call (function : PackagePath) (arguments : List Expr)
  /-- A value of the structure being implemented, with each field given the parameter of its
  name. -/
  | selfValue (fields : List Ident)
  deriving Inhabited

/-- An attribute. -/
inductive Attribute where
  /-- The traits that are implemented automatically. -/
  | derive (traits : List Ident)
  /-- A warning that is silenced. -/
  | allow (path : List Ident)
  /-- The name of a field in serialized form. -/
  | rename (name : String)
  deriving Inhabited

/-- A field of a structure. -/
structure Field where
  /-- Its attributes. -/
  attributes : List Attribute := []
  /-- Its name. -/
  name : Ident
  /-- Its type. -/
  type : Ty
  deriving Inhabited

/-- A function. -/
structure Function where
  /-- Its documentation, line by line. -/
  docs : List String
  /-- Its attributes. -/
  attributes : List Attribute := []
  /-- Its name. -/
  name : Ident
  /-- Its parameters. -/
  parameters : List (Ident × Ty)
  /-- The name of its result type. -/
  result : Ident
  /-- Its body. -/
  body : Expr
  deriving Inhabited

/-- An item of a file or a module. -/
inductive Item where
  /-- Imports names from a module. -/
  | use (source : Ident) (names : List Ident)
  /-- A text constant. -/
  | constant (docs : List String) (name : Ident) (value : String)
  /-- Another name for a type. -/
  | typeAlias (name : Ident) (type : Ty)
  /-- A structure. -/
  | struct (docs : List String) (attributes : List Attribute) (name : Ident) (fields : List Field)
  /-- The functions of a structure. -/
  | impl (name : Ident) (functions : List Function)
  /-- A module with its items. -/
  | module (docs : List String) (name : Ident) (items : List Item)
  /-- A module in a file of its own. -/
  | moduleFile (name : Ident)
  /-- A function. -/
  | function (declaration : Function)
  deriving Inhabited

/-- A file. -/
structure File where
  /-- Its documentation, line by line. -/
  docs : List String
  /-- Its items. -/
  items : List Item
  deriving Inhabited

/-! ### Tokens -/

/-- The tokens of a name with double colons. -/
def pathTokens : List Ident → List String
  | [] => []
  | [ident] => [ident.spelling]
  | ident :: idents => ident.spelling :: ":" :: ":" :: pathTokens idents

/-- Parts with a comma between them. -/
def withCommas : List (List String) → List String
  | [] => []
  | [part] => part
  | part :: parts => part ++ "," :: withCommas parts

/-- The token of a text. -/
def textToken (text : String) : String := "\"" ++ text ++ "\""

/-- The tokens of documentation; `mark` stands before each line. -/
def docTokens (mark : List String) (docs : List String) : List String :=
  docs.flatMap fun doc => mark ++ ["[", "doc", "=", textToken doc, "]"]

/-- The tokens of a segment of a path. -/
def segmentTokens (segment : PathSegment) : List String :=
  segment.ident.spelling :: (if segment.colons then [":", ":"] else []) ++ segment.arguments

/-- The tokens of segments with double colons between them. -/
def segmentsTokens : List PathSegment → List String
  | [] => []
  | [segment] => segmentTokens segment
  | segment :: segments => segmentTokens segment ++ ":" :: ":" :: segmentsTokens segments

/-- The tokens of a path. -/
def packageTokens (path : PackagePath) : List String :=
  (if path.leadingColons then [":", ":"] else []) ++ segmentsTokens path.segments

/-- The tokens of a type. -/
def Ty.tokens : Ty → List String
  | unit => ["(", ")"]
  | path segments => pathTokens segments
  | apply constructor argument => constructor.spelling :: "<" :: argument.tokens ++ [">"]

mutual

/-- The tokens of an expression. -/
def Expr.tokens : Expr → List String
  | name ident => [ident.spelling]
  | call function arguments =>
    packageTokens function ++ "(" :: withCommas (Expr.tokensOfEach arguments) ++ [")"]
  | selfValue fields =>
    "Self" :: "\x7b" :: withCommas (fields.map fun field => [field.spelling]) ++ ["\x7d"]

/-- The tokens of each of some expressions. -/
def Expr.tokensOfEach : List Expr → List (List String)
  | [] => []
  | expr :: exprs => expr.tokens :: Expr.tokensOfEach exprs

end

/-- What stands between the brackets of an attribute. -/
def Attribute.content : Attribute → Ident × List (List String)
  | derive traits => (.plain "derive", traits.map fun ident => [ident.spelling])
  | allow path => (.plain "allow", [pathTokens path])
  | rename name => (.plain "serde", [["rename", "=", textToken name]])

/-- The tokens of an attribute. -/
def Attribute.tokens (attr : Attribute) : List String :=
  let (name, parts) := attr.content
  ["#", "[", name.spelling, "("] ++ withCommas parts ++ [")", "]"]

/-- The tokens of a field. -/
def Field.tokens (field : Field) : List String :=
  field.attributes.flatMap Attribute.tokens ++
    "pub" :: field.name.spelling :: ":" :: field.type.tokens ++ [","]

/-- The tokens of a function. -/
def Function.tokens (function : Function) : List String :=
  let parameters :=
    function.parameters.map fun (name, type) => name.spelling :: ":" :: type.tokens
  docTokens ["#"] function.docs ++ function.attributes.flatMap Attribute.tokens ++
    ["pub", "fn", function.name.spelling, "("] ++ withCommas parameters ++
    [")", "-", ">", function.result.spelling, "\x7b"] ++ function.body.tokens ++ ["\x7d"]

mutual

/-- The tokens of an item. -/
def Item.tokens : Item → List String
  | use source names =>
    ["use", source.spelling, ":", ":", "\x7b"] ++
      withCommas (names.map fun name => [name.spelling]) ++ ["\x7d", ";"]
  | constant docs name value =>
    docTokens ["#"] docs ++
      ["pub", "const", name.spelling, ":", "&", "str", "=", textToken value, ";"]
  | typeAlias name type => ["pub", "type", name.spelling, "="] ++ type.tokens ++ [";"]
  | struct docs attributes name fields =>
    docTokens ["#"] docs ++ attributes.flatMap Attribute.tokens ++
      ["pub", "struct", name.spelling, "\x7b"] ++ fields.flatMap Field.tokens ++ ["\x7d"]
  | impl name functions =>
    ["impl", name.spelling, "\x7b"] ++ functions.flatMap Function.tokens ++ ["\x7d"]
  | module docs name items =>
    docTokens ["#"] docs ++ ["pub", "mod", name.spelling, "\x7b"] ++ Item.tokensOfAll items ++
      ["\x7d"]
  | moduleFile name => ["pub", "mod", name.spelling, ";"]
  | function declaration => declaration.tokens

/-- The tokens of items. -/
def Item.tokensOfAll : List Item → List String
  | [] => []
  | item :: items => item.tokens ++ Item.tokensOfAll items

end

/-- The tokens of a file. -/
def File.tokens (file : File) : List String :=
  docTokens ["#", "!"] file.docs ++ Item.tokensOfAll file.items

/-! ### Rules of the language

Every identifier is one by construction, so only two rules can be broken: an underscore may name
a parameter but nothing else, and in an expression double colons stand before type arguments. -/

/-- No segment of a path is an underscore. -/
def isValidPath (path : List Ident) : Bool := path.all fun ident => !ident.isUnderscore

/-- A path may stand in an expression. -/
def isValidFunction (path : PackagePath) : Bool :=
  path.segments.all fun segment =>
    !segment.ident.isUnderscore && (segment.arguments.isEmpty || segment.colons)

/-- A type obeys the rules. -/
def Ty.isValid : Ty → Bool
  | unit => true
  | path segments => isValidPath segments
  | apply _ argument => argument.isValid

mutual

/-- An expression obeys the rules. -/
def Expr.isValid : Expr → Bool
  | name _ => true
  | call function arguments => isValidFunction function && Expr.areValid arguments
  | selfValue fields => isValidPath fields

/-- Expressions obey the rules. -/
def Expr.areValid : List Expr → Bool
  | [] => true
  | expr :: exprs => expr.isValid && Expr.areValid exprs

end

/-- A field obeys the rules. -/
def Field.isValid (field : Field) : Bool := !field.name.isUnderscore && field.type.isValid

/-- A function obeys the rules. -/
def Function.isValid (function : Function) : Bool :=
  !function.name.isUnderscore && function.parameters.all (fun param => param.2.isValid) &&
    function.body.isValid

mutual

/-- An item obeys the rules. -/
def Item.isValid : Item → Bool
  | use source names => isValidPath (source :: names)
  | constant _ name _ => !name.isUnderscore
  | typeAlias name type => !name.isUnderscore && type.isValid
  | struct _ _ name fields => !name.isUnderscore && fields.all Field.isValid
  | impl name functions => !name.isUnderscore && functions.all Function.isValid
  | module _ name items => !name.isUnderscore && Item.areValid items
  | moduleFile name => !name.isUnderscore
  | function declaration => declaration.isValid

/-- Items obey the rules. -/
def Item.areValid : List Item → Bool
  | [] => true
  | item :: items => item.isValid && Item.areValid items

end

/-- A file obeys the rules. -/
def File.isValid (file : File) : Bool := Item.areValid file.items

end Code

end ClientSdk
