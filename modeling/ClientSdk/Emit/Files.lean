import ClientSdk.Emit.Operation
import ClientSdk.Emit.Print

/-!
# Generated Files

One file for each operation, named for its module, and one that declares all of the modules. Two
operations whose modules have one name are a collision. Code that breaks a rule of its language
is not printed.

## Main definitions

* `outputFiles`: the files of class models.
-/

namespace ClientSdk

/-- A generated file. -/
structure OutputFile where
  /-- Its name in the output directory. -/
  name : String
  /-- Its contents. -/
  content : String
  deriving DecidableEq, Repr, Inhabited

/-- The name of the file that declares the modules. -/
def indexName : String := "mod.rs"

/-- What stands at the top of every generated file. -/
def notice : String :=
  "// This code was automatically generated by crudkit-gen. Do not edit manually.\n\n"

/-- The contents of a file, if its code obeys the rules. -/
def renderCode (file : Code.File) : Except GenerationError String :=
  if file.isValid then .ok (notice ++ file.print) else .error .invalidCode

/-- The files of the operations, when `taken` are the names of the modules before. -/
def operationFiles (taken : List String) :
    List ClassModel → Except GenerationError (List OutputFile)
  | [] => .ok []
  | model :: models => do
    let name ← moduleName model.operationName
    if name ∈ taken then .error (.namingCollision .operationModule name)
    else do
      let content ← renderCode (← emitOperation model)
      return { name := name ++ ".rs", content } :: (← operationFiles (name :: taken) models)

/-- The file that declares the modules of operations. -/
def indexFile (operations : List String) : Except GenerationError OutputFile := do
  return { name := indexName, content := ← renderCode (← emitIndex operations) }

/-- The files of class models: one for each, in order, and the one that declares their modules. -/
def outputFiles (models : List ClassModel) : Except GenerationError (List OutputFile) := do
  let files ← operationFiles [] models
  return files ++ [← indexFile (models.map (·.operationName))]

end ClientSdk
