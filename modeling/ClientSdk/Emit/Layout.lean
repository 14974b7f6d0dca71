/-!
# Layout

Text with places where lines may end, grouped into boxes. A box that fits into the rest of its
line stays on that line. In a box that does not, every place between its own parts ends a line,
and the lines inside are indented; boxes inside it are looked at anew.

The size of a box is its own width and that of what follows it up to the next place where a line
may end, so that closing brackets count.

## Main definitions

* `Layout`: texts, breaks and boxes.
* `Layout.print`: the text of a layout.
-/

namespace ClientSdk

/-- Text with places where lines may end. -/
inductive Layout where
  /-- A text without line ends. -/
  | text (words : String)
  /-- A place where a line may end: `blanks` blanks if it does not; if it does, `closing` before
  the line end and an indentation that differs by `offset`. -/
  | lineBreak (blanks : Nat) (offset : Int) (closing : String)
  /-- Parts that stay on one line together if they fit, and are indented by `indent` if not.
  Where `limit` is given, the parts may be no wider than that on one line. -/
  | box (indent : Nat) (limit : Option Nat) (parts : List Layout)
  deriving Inhabited

namespace Layout

/-- The width of a line. -/
def margin : Nat := 89

/-- The width that is left to a line, however far it is indented. -/
def leastSpace : Nat := 60

/-- More blanks than any line has. -/
def tooWide : Nat := 65535

/-- A place where a line ends in any case. -/
def newline : Layout := lineBreak tooWide 0 ""

/-- A place where a line ends in any case, before the bracket that closes a box. -/
def newlineOut : Layout := lineBreak tooWide (-4) ""

/-! ### Widths -/

mutual

/-- The width on one line. -/
def width : Layout → Nat
  | text words => words.utf8ByteSize
  | lineBreak blanks _ _ => blanks
  | box _ _ parts => widthOfAll parts

/-- The width of parts on one line. -/
def widthOfAll : List Layout → Nat
  | [] => 0
  | part :: parts => part.width + widthOfAll parts

end

mutual

/-- The width up to the first place where a line may end, when `after` is that of what follows
the layout; and whether there is such a place inside it. -/
def lead (after : Nat) : Layout → Nat
  | text words => words.utf8ByteSize + after
  | lineBreak _ _ _ => 0
  | box _ _ parts => leadOfAll after parts

/-- The width of parts up to the first place where a line may end. -/
def leadOfAll (after : Nat) : List Layout → Nat
  | [] => after
  | part :: parts => lead (leadOfAll after parts) part

end

/-! ### Printing -/

/-- What has been printed. -/
structure Page where
  /-- The text so far, last piece first. -/
  pieces : List String := []
  /-- Blanks that are due before the next text. -/
  due : Nat := 0
  /-- What is left of the line. -/
  space : Int := margin
  /-- The indentation of the next line. -/
  indent : Int := 0

namespace Page

/-- Prints a text, after the blanks that are due. -/
def write (page : Page) (text : String) : Page :=
  { page with
    pieces := text :: "".pushn ' ' page.due :: page.pieces
    due := 0
    space := page.space - text.utf8ByteSize }

/-- Leaves some blanks on the line. -/
def skip (page : Page) (blanks : Nat) : Page :=
  { page with due := page.due + blanks, space := page.space - blanks }

/-- Ends the line, after `closing`. Blanks before the line end are dropped. -/
def endLine (page : Page) (offset : Int) (closing : String) : Page :=
  let closed := if closing.isEmpty then page else page.write closing
  let indent := page.indent + offset
  { closed with
    pieces := "\n" :: closed.pieces
    due := indent.toNat
    space := max (margin - indent) leastSpace }

/-- The printed text. -/
def contents (page : Page) : String := String.join page.pieces.reverse

end Page

mutual

/-- Prints a layout. In a broken box every break ends a line; `after` is the width of what
follows up to the next place where a line may end. -/
def printOn (broken : Bool) (after : Nat) (page : Page) : Layout → Page
  | text words => page.write words
  | lineBreak blanks offset closing =>
    if broken then page.endLine offset closing else page.skip blanks
  | box indent limit parts =>
    let size := widthOfAll parts
    if page.space < ((size + after : Nat) : Int) || limit.any (· < size) then
      let inside := { page with indent := page.indent + indent }
      { printAllOn true after inside parts with indent := page.indent }
    else printAllOn false after page parts

/-- Prints parts one after another. -/
def printAllOn (broken : Bool) (after : Nat) (page : Page) : List Layout → Page
  | [] => page
  | part :: parts =>
    printAllOn broken after (printOn broken (leadOfAll after parts) page part) parts

end

/-- The text of a layout. -/
def print (layout : Layout) : String := (layout.printOn false 0 {}).contents

/-! ### Groups of parts -/

/-- Groups of parts with a comma and a blank between them, or with each on a line of its own and
a comma after each; `last` stands after the last one. -/
def commaSeparated (last : Layout) : List (List Layout) → List Layout
  | [] => []
  | [group] => group ++ [last]
  | group :: groups => group ++ text "," :: lineBreak 1 0 "" :: commaSeparated last groups

/-- Groups of parts, each on lines of its own; the bracket that closes the box follows. -/
def linesInside : List (List Layout) → List Layout
  | [] => []
  | [group] => group ++ [newlineOut]
  | group :: groups => group ++ newline :: linesInside groups

end Layout

end ClientSdk
