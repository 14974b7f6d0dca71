import ClientSdk.CommandLine
import ClientSdk.Json.ClassModel
import ClientSdk.Run

/-!
# The Program

What the program does with its arguments, on any host, and the exit code that it ends with.

## Main definitions

* `program`: a whole execution.
* `Outcome.exitCode`: its exit code.
-/

namespace ClientSdk

/-- How an execution ends. -/
inductive Outcome where
  /-- All that was asked for is done. -/
  | done
  /-- The arguments are wrong. -/
  | misused
  /-- The run has failed. -/
  | failed (error : GenerationError)
  deriving DecidableEq, Repr

/-- The exit code: a name that cannot be made an identifier aborts the program. -/
def Outcome.exitCode : Outcome → Nat
  | done => 0
  | misused => 2
  | failed (.notAnIdentifier _) => 101
  | failed _ => 1

/-- The line that tells the version. -/
def versionLine : String := "crudkit-gen 0.1.0"

/-- The line that tells how the program is used. -/
def usageLine : String :=
  "Usage: crudkit-gen [OPTIONS] --schema <SCHEMA> --operations <OPERATIONS>"

/-- The lines of the help. -/
def helpLines : List String :=
  ["Generates typed client SDK code from a GraphQL schema and operations",
   "",
   usageLine,
   "",
   "Options:",
   "  -s, --schema <SCHEMA>          GraphQL schema (SDL) file",
   "      --operations <OPERATIONS>  Operation document; repeat for several files",
   "  -o, --output <OUTPUT>          Output directory for generated code [default: src/sdk]",
   "  -p, --package <PACKAGE>        Rust module path of the output directory " ++
     "(e.g. `crate::sdk`) [default: crate]",
   "      --dry-run                  Print generated code without writing files",
   "      --emit-model               Print the generated class models as JSON",
   "  -v, --verbose...               Increase verbosity (-v, -vv, -vvv)",
   "  -h, --help                     Print help",
   "  -V, --version                  Print version"]

variable {m : Type → Type} [Monad m] [Host m]

/-- Prints a line on the output. -/
def printLine (line : String) : m Unit := Host.print (line ++ "\n")

/-- The line that reports a failure. -/
def GenerationError.report (error : GenerationError) : String :=
  s!"Error: {error.kind}: {error.message}"

/-- Runs as the options say, prints the class models if they are asked for, and reports the
number of modules that have been written. -/
def execute (options : CommandLine.Options) : m Outcome := do
  match ← (run options.plan).run with
  | .error error =>
    Host.report error.report
    return .failed error
  | .ok product =>
    if options.emitModel then
      printLine (Json.array (product.models.map (·.toJson))).pretty
    if !options.plan.dryRun then
      Host.report
        s!"Generated {product.models.length} operation modules in {options.plan.directory}"
    return .done

/-- A whole execution with the given arguments. -/
def program (args : List String) : m Outcome := do
  match CommandLine.parse args with
  | .ok options => execute options
  | .error .help =>
    helpLines.forM printLine
    return .done
  | .error .version =>
    printLine versionLine
    return .done
  | .error .misuse =>
    Host.report usageLine
    return .misused

end ClientSdk
