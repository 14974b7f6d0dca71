import ClientSdk.Plan
import ClientSdk.Emit.Files
import ClientSdk.Generation
import ClientSdk.Host

/-!
# Runs

A run as it is planned: documents are read from files, and the generated files are written or
printed. A file is written beside its place first and then moved there, so that its place holds
the old or the new contents at any time.

## Main definitions

* `readSource`, `replaceFile`, `deliver`: documents from files, and files to their places.
* `run`: a whole run.
-/

namespace ClientSdk

variable {m : Type → Type} [Monad m] [Host m]

/-- Fails with an error if a step is not done. -/
def demand (step : m Bool) (error : GenerationError) : ExceptT GenerationError m Unit := do
  if ← step then return () else throw error

/-- The document at a path, which has to be text. -/
def readSource (path : String) : ExceptT GenerationError m SourceText := do
  let bytes ← (Host.read path : m (Option ByteArray))
  match bytes.bind String.fromUTF8? with
  | some text => return { path, text }
  | none => throw (.unreadable path)

/-- Gives a file new contents by way of a draft beside it. -/
def replaceFile (path content : String) : ExceptT GenerationError m Unit := do
  match Path.parent? path with
  | none => pure ()
  | some directory =>
    if !directory.isEmpty then
      demand (Host.createDirectories directory) (.unwritable directory)
  let draft := Path.withExtension path "tmp"
  demand (Host.write draft content) (.unwritable draft)
  demand (Host.rename draft path) (.unwritable path)

/-- A file as it is printed. -/
def OutputFile.printed (file : OutputFile) : String :=
  s!"=== {file.name} ===\n{file.content}\n\n"

/-- Writes files into a directory, or prints them. -/
def deliver (files : List OutputFile) (directory : String) (dryRun : Bool) :
    ExceptT GenerationError m Unit :=
  files.forM fun file =>
    if dryRun then liftM (Host.print file.printed : m Unit)
    else replaceFile (Path.join directory file.name) file.content

/-- What a run has produced. -/
structure Product where
  /-- The class models of the operations. -/
  models : List ClassModel
  /-- The generated files. -/
  files : List OutputFile

/-- The event of a delivered file. -/
def Plan.deliveryOf (plan : Plan) (file : OutputFile) : RunEvent :=
  if plan.dryRun then .printed file.name
  else .wrote (Path.join plan.directory file.name)

/-- Generates files as they are planned. All documents are read before the first step, and all
files are rendered before the first of them is delivered. -/
def run (plan : Plan) : ExceptT GenerationError m Product := do
  plan.check
  let schema ← readSource plan.schema
  let operations ← plan.operations.mapM readSource
  let (result, events) := (classModels schema operations plan.package).trace
  liftM (events.forM Host.note : m Unit)
  let models ← result
  let files ← outputFiles models
  deliver files plan.directory plan.dryRun
  liftM (files.forM (fun file => Host.note (plan.deliveryOf file)) : m Unit)
  return { models, files }

end ClientSdk
