import ClientSdk.Emit.Code
import ClientSdk.Emit.Layout
import ClientSdk.Text.MarkTable

/-!
# Printing Code

The usual layout of the target language: four blanks for each level, a line for each field and
each item, and lists of parameters and arguments on one line where they fit.

## Main definitions

* `Code.File.print`: the text of a file.
-/

namespace ClientSdk

namespace Code

open Layout

/-! ### Texts -/

/-- The hexadecimal digits of a number. -/
def hexDigits (n : Nat) : List Char := Nat.toDigits 16 n

/-- A character of a text inside quotes. Marks are written by number, since they would attach to
what stands before them. -/
def quotedChar (c : Char) : List Char :=
  if c = '"' then ['\\', '"']
  else if c = '\\' then ['\\', '\\']
  else if c = '\n' then ['\\', 'n']
  else if c = '\r' then ['\\', 'r']
  else if c = '\t' then ['\\', 't']
  else if c.toNat < 32 || Text.extenderRanges.contains c then
    ['\\', 'u', '\x7b'] ++ hexDigits c.toNat ++ ['\x7d']
  else [c]

/-- A text in quotes. -/
def quoted (text : String) : String :=
  "\"" ++ String.ofList (text.toList.flatMap quotedChar) ++ "\""

/-- A path of identifiers. -/
def pathText (path : List Ident) : String := "::".intercalate (path.map Ident.spelling)

/-- The type arguments of a segment. -/
def argumentsText (arguments : List String) : String :=
  String.join (arguments.map fun token => if token = "," then ", " else token)

/-- A path with type arguments. -/
def packageText (path : PackagePath) : String :=
  (if path.leadingColons then "::" else "") ++
    "::".intercalate (path.segments.map fun segment =>
      segment.ident.spelling ++ (if segment.colons then "::" else "") ++
        argumentsText segment.arguments)

/-! ### Types and expressions -/

/-- The last break of a list in brackets, with a comma where the list is broken. -/
def lastBreak : Layout := lineBreak 0 (-4) ","

/-- The layout of a type. -/
def Ty.layout : Ty → List Layout
  | unit => [text "()"]
  | path segments => [text (pathText segments)]
  | apply constructor argument =>
    [text (constructor.spelling ++ "<"),
     box 4 none (lineBreak 0 0 "" :: argument.layout ++ [lastBreak]), text ">"]

/-- The width up to which a structure value stays on one line. -/
def structWidth : Nat := 34

mutual

/-- The layout of an expression. -/
def Expr.layout : Expr → List Layout
  | name ident => [text ident.spelling]
  | call function arguments =>
    if arguments.isEmpty then [text (packageText function ++ "()")]
    else
      [text (packageText function ++ "("),
       box 4 none (lineBreak 0 0 "" :: commaSeparated lastBreak (Expr.layoutOfEach arguments)),
       text ")"]
  | selfValue fields =>
    if fields.isEmpty then [text "Self \x7b\x7d"]
    else
      [box 4 (some structWidth)
         (text "Self \x7b" :: lineBreak 1 0 "" ::
           commaSeparated (lineBreak 1 (-4) ",") (fields.map fun field => [text field.spelling])),
       text "\x7d"]

/-- The layouts of expressions. -/
def Expr.layoutOfEach : List Expr → List (List Layout)
  | [] => []
  | expr :: exprs => expr.layout :: Expr.layoutOfEach exprs

end

/-! ### Attributes -/

/-- The layout of documentation, each line after `mark`. -/
def docLayout (mark : String) (docs : List String) : List Layout :=
  docs.flatMap fun doc => [text (mark ++ doc), newline]

/-- The texts between the brackets of an attribute, with the name before them. -/
def Attribute.texts : Attribute → String × List String
  | derive traits => ("derive", traits.map Ident.spelling)
  | allow path => ("allow", [pathText path])
  | rename name => ("serde", ["rename = " ++ quoted name])

/-- The layout of an attribute. -/
def Attribute.layout (attr : Attribute) : List Layout :=
  let (name, parts) := attr.texts
  [text ("#[" ++ name ++ "("),
   box 4 none (lineBreak 0 0 "" ::
     commaSeparated (lineBreak 0 (-4) "") (parts.map fun part => [text part])),
   text ")]", lineBreak 1 0 ""]

/-! ### Items -/

/-- The layout of a field. -/
def Field.layout (field : Field) : List Layout :=
  field.attributes.flatMap Attribute.layout ++
    text ("pub " ++ field.name.spelling ++ ": ") :: field.type.layout ++ [text ","]

/-- The layout of parameters. -/
def parametersLayout (params : List (Ident × Ty)) : List Layout :=
  if params.isEmpty then []
  else
    [box 0 none (lineBreak 0 0 "" ::
      commaSeparated lastBreak (params.map fun (name, type) =>
        text (name.spelling ++ ": ") :: type.layout))]

/-- The layout of a function. -/
def Function.layout (function : Function) : List Layout :=
  docLayout "///" function.docs ++ function.attributes.flatMap Attribute.layout ++
    [box 4 none
      (text ("pub fn " ++ function.name.spelling ++ "(") :: parametersLayout function.parameters ++
        [text (") -> " ++ function.result.spelling ++ " \x7b"), newline,
         box 0 none function.body.layout, newlineOut]),
     text "\x7d"]

/-- The layout of groups of parts in braces, after `header`. -/
def bracedLayout (header : String) (groups : List (List Layout)) : List Layout :=
  [box 4 none
    (text (header ++ " \x7b") ::
      if groups.isEmpty then [] else newline :: linesInside groups),
   text "\x7d"]

mutual

/-- The layout of an item. -/
def Item.layout : Item → List Layout
  | use source names =>
    [text ("use " ++ source.spelling ++ "::\x7b" ++ ", ".intercalate (names.map Ident.spelling) ++
      "\x7d;")]
  | constant docs name value =>
    docLayout "///" docs ++
      [text ("pub const " ++ name.spelling ++ ": &str = " ++ quoted value ++ ";")]
  | typeAlias name type =>
    text ("pub type " ++ name.spelling ++ " = ") :: type.layout ++ [text ";"]
  | struct docs attributes name fields =>
    docLayout "///" docs ++ attributes.flatMap Attribute.layout ++
      bracedLayout ("pub struct " ++ name.spelling) (fields.map Field.layout)
  | impl name functions =>
    bracedLayout ("impl " ++ name.spelling) (functions.map Function.layout)
  | module docs name items =>
    docLayout "///" docs ++
      bracedLayout ("pub mod " ++ name.spelling) (Item.layoutOfEach items)
  | moduleFile name => [text ("pub mod " ++ name.spelling ++ ";")]
  | function declaration => declaration.layout

/-- The layouts of items. -/
def Item.layoutOfEach : List Item → List (List Layout)
  | [] => []
  | item :: items => item.layout :: Item.layoutOfEach items

end

/-- The layout of a file. -/
def File.layout (file : File) : Layout :=
  box 0 none
    (docLayout "//!" file.docs ++
      (Item.layoutOfEach file.items).flatMap fun item => item ++ [newline])

/-- The text of a file. -/
def File.print (file : File) : String := file.layout.print

end Code

end ClientSdk
