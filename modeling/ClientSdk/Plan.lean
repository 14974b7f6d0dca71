import ClientSdk.Error

/-!
# Plans

What a generation run reads, where it writes, and the check that comes before any file is read.

## Main definitions

* `Plan`: the inputs and outputs of a run.
* `spellsModule`: the packages that are accepted.
* `Plan.check`: the check.
-/

namespace ClientSdk

/-- The package of generated code for which none is given. -/
def usualPackage : String := "crate"

/-- The inputs and outputs of a run. -/
structure Plan where
  /-- The path of the schema document. -/
  schema : String
  /-- The paths of the operation documents, in order. -/
  operations : List String := []
  /-- The directory that receives the generated files. -/
  directory : String
  /-- The path of the module that the generated code goes into. -/
  package : String := usualPackage
  /-- The generated files are printed and not written. -/
  dryRun : Bool := false
  deriving DecidableEq, Repr, Inhabited

/-! ### Module paths -/

/-- The parts of a text between double colons. Of three colons, the first two divide. -/
def splitAtColons : List Char → List (List Char)
  | [] => [[]]
  | ':' :: ':' :: rest => [] :: splitAtColons rest
  | c :: rest =>
    match splitAtColons rest with
    | part :: parts => (c :: part) :: parts
    | [] => [[c]]

/-- A letter of the Latin alphabet or an underscore, and digits after the first character. -/
def isPlainIdentifier : List Char → Bool
  | [] => false
  | c :: rest => (c.isAlpha || c == '_') && rest.all fun d => d.isAlphanum || d == '_'

/-- A part of a module path is a plain identifier other than a lone underscore. -/
def isModuleSegment (part : List Char) : Bool := isPlainIdentifier part && part != ['_']

/-- Parts with double colons between them. Those that name the root of all modules and the
module itself stand only in front. -/
def spellsModule (path : String) : Bool :=
  let parts := splitAtColons path.toList
  parts.all isModuleSegment &&
    parts.tail.all fun part => part != "crate".toList && part != "self".toList

/-! ### Plans -/

namespace Plan

/-- The plan with more operation documents. -/
def addOperations (plan : Plan) (paths : List String) : Plan :=
  { plan with operations := plan.operations ++ paths }

/-- There is an operation document, and the package is a module path. -/
def check (plan : Plan) : Except GenerationError Unit :=
  if plan.operations.isEmpty then .error .noOperations
  else if spellsModule plan.package then .ok ()
  else .error (.packageNotModulePath plan.package)

end Plan

end ClientSdk
