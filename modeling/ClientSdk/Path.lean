/-!
# Paths

Paths of files as texts: names with slashes between them. A part that is empty or a lone dot
leads nowhere, except in front, where an empty part is the root and a dot the directory that the
path starts from.

## Main definitions

* `Path.join`, `Path.parent?`, `Path.withExtension`.
-/

namespace ClientSdk

namespace Path

/-- The parts of a text between slashes. -/
def splitAtSlashes : List Char → List (List Char)
  | [] => [[]]
  | c :: rest =>
    if c = '/' then [] :: splitAtSlashes rest
    else
      match splitAtSlashes rest with
      | part :: parts => (c :: part) :: parts
      | [] => [[c]]

/-- The parts of a path. -/
def parts (path : String) : List String :=
  if path.isEmpty then [] else (splitAtSlashes path.toList).map String.ofList

/-- The path with the given parts. -/
def ofParts : List String → String
  | [""] => "/"
  | parts => "/".intercalate parts

/-- The part leads nowhere. -/
def isIdle (part : String) : Bool := part == "" || part == "."

/-- The parts without those at the end that lead nowhere. -/
def trimmed : List String → List String
  | [] => []
  | first :: rest => first :: (rest.reverse.dropWhile isIdle).reverse

/-- The directory that a path lies in. The root and the empty path lie in none. -/
def parent? (path : String) : Option String :=
  match trimmed (parts path) with
  | [] => none
  | [""] => none
  | names => some (ofParts (trimmed names.dropLast))

/-- A path inside a directory. A path from the root stays as it is. -/
def join (directory path : String) : String :=
  if directory.isEmpty || directory.back == '/' || path.front == '/' then
    if path.front == '/' then path else directory ++ path
  else directory ++ "/" ++ path

/-- The part of a file name before its last dot. A dot in front begins no extension. -/
def stem (name : List Char) : List Char :=
  match name.reverse.dropWhile (· != '.') with
  | [] => name
  | [_] => name
  | _ :: front => front.reverse

/-- The path with another extension of its file name. A path that does not end in a name stays as
it is. -/
def withExtension (path ext : String) : String :=
  match (trimmed (parts path)).reverse with
  | [] => path
  | name :: front =>
    if name = "" ∨ name = "." ∨ name = ".." then path
    else ofParts (front.reverse ++ [String.ofList (stem name.toList) ++ "." ++ ext])

end Path

end ClientSdk
