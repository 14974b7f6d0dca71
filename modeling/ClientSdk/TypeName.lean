/-!
# Names of Types

The leaf types of a schema: the five scalars every schema has, and three result markers
that augmentation adds. The names of the markers carry a reserved prefix that no declared
type can have; the prefix is dropped in generated code and replaced in schema text.

## Main definitions

* `standardScalars`, `mutationResults`: the names of the leaf types.
* `memberName`: the name of a type in a generated class.
* `nameInSdl`: the name of a type in schema text.
-/

namespace ClientSdk

/-- The scalars that every schema has. -/
def standardScalars : List String := ["Int", "Float", "String", "Boolean", "ID"]

/-- The prefix of names that only the generator makes. -/
def reservedMark : String := "sdk:"

/-- The result type of every synthesized insertion. -/
def insertResult : String := "sdk:MutationRef.InsertData"

/-- The result type of every synthesized update. -/
def updateResult : String := "sdk:MutationRef.UpdateData"

/-- The result type of every synthesized deletion. -/
def deleteResult : String := "sdk:MutationRef.DeleteData"

/-- The result types of synthesized mutations, in the order of their registration. -/
def mutationResults : List String := [insertResult, updateResult, deleteResult]

/-- `name` is one of the scalars that every schema has. -/
def isStandardScalar (name : String) : Bool := standardScalars.contains name

/-- The part of `name` after the reserved prefix, when it has that prefix. -/
def afterReservedMark? (name : String) : Option String :=
  if reservedMark.toList.isPrefixOf name.toList then
    some (String.ofList (name.toList.drop reservedMark.toList.length))
  else none

/-- `name` carries the reserved prefix. -/
def isReservedName (name : String) : Bool := (afterReservedMark? name).isSome

/-- The name of the type `name` in a generated class: identifiers are strings there, and the
reserved prefix is dropped. -/
def memberName (name : String) : String :=
  if name = "ID" then "String" else (afterReservedMark? name).getD name

/-- `member` is the name of a result marker in a generated class. -/
def isResultMember (member : String) : Bool :=
  mutationResults.any fun result => memberName result == member

/-- The name of the type `name` in schema text. The reserved prefix and the dots after it
are no part of the notation, so they become underscores. -/
def nameInSdl (name : String) : String :=
  match afterReservedMark? name with
  | some rest => "sdk_" ++ String.ofList (rest.toList.map fun c => if c = '.' then '_' else c)
  | none => name

end ClientSdk
