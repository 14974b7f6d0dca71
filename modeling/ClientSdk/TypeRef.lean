/-!
# Type References

The type of a field, an argument or a variable: a named type or a list of some type, each
level nullable or not. `[Movie!]` is a nullable list of non-null `Movie`.

## Main definitions

* `TypeRef`: the type of such references.
* `TypeRef.leafName`, `TypeRef.withLeafName`: the name at the bottom of the list levels.
* `TypeRef.sdl`: the reference in schema notation; `TypeRef.ofSdl` reads it.
-/

namespace ClientSdk

/-- A reference to a type: a name, or a list of elements of some type. Each level says
whether null is allowed there. -/
inductive TypeRef where
  /-- A reference by name. -/
  | named (name : String) (nullable : Bool)
  /-- A list of elements. -/
  | list (element : TypeRef) (nullable : Bool)
  deriving DecidableEq, Repr, Inhabited

namespace TypeRef

/-- Null is allowed at the outermost level. -/
def nullable : TypeRef → Bool
  | named _ nullable => nullable
  | list _ nullable => nullable

/-- The outermost level is a list. -/
def isList : TypeRef → Bool
  | named _ _ => false
  | list _ _ => true

/-- The type of the elements, when the outermost level is a list. -/
def element? : TypeRef → Option TypeRef
  | named _ _ => none
  | list element _ => some element

/-- The name of the type at the bottom of the list levels. -/
def leafName : TypeRef → String
  | named name _ => name
  | list element _ => element.leafName

/-- The same reference with nullability `nullable` at the outermost level. -/
def withNullable (nullable : Bool) : TypeRef → TypeRef
  | named name _ => named name nullable
  | list element _ => list element nullable

/-- The same reference without null at the outermost level. -/
def nonNull (type : TypeRef) : TypeRef := type.withNullable false

/-- The same reference with another name at the bottom; every level is kept. -/
def withLeafName (name : String) : TypeRef → TypeRef
  | named _ nullable => named name nullable
  | list element nullable => list (element.withLeafName name) nullable

/-! ### Notation -/

/-- The reference in schema notation: brackets around the element type of a list, and an
exclamation mark after a level that excludes null. -/
def sdl : TypeRef → String
  | named name nullable => name ++ (if nullable then "" else "!")
  | list element nullable => "[" ++ element.sdl ++ "]" ++ (if nullable then "" else "!")

instance : ToString TypeRef := ⟨sdl⟩

/-- The text between the first and the last character, when they are a pair of brackets. -/
def unbracket? : List Char → Option (List Char)
  | '[' :: rest => if rest.getLast? = some ']' then some rest.dropLast else none
  | _ => none

/-- Reads schema notation with `fuel` levels of brackets at most; deeper text is taken as a
name. -/
def ofCharsFueled : Nat → List Char → TypeRef
  | 0, cs => named (String.ofList cs) true
  | fuel + 1, cs =>
    let (body, nullable) :=
      if cs.getLast? = some '!' then (cs.dropLast, false) else (cs, true)
    match unbracket? body with
    | some inner => list (ofCharsFueled fuel inner) nullable
    | none => named (String.ofList body) nullable

/-- Reads schema notation. Every text denotes a reference: what is no list is a name, whatever
its characters. Each level takes at least one character, so the length bounds the levels. -/
def ofSdl (text : String) : TypeRef := ofCharsFueled (text.toList.length + 1) text.toList

end TypeRef

end ClientSdk
