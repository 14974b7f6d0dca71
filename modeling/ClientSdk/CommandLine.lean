import ClientSdk.Plan

/-!
# Command Lines

The arguments of the program. A long option is written `--name value` or `--name=value`, a short
one `-n value`, `-nvalue` or `-n=value`, and short flags may share a dash. An option takes one
value, which does not look like an option itself. Only `--operations` and `-v` may be repeated.
Arguments are read in order, so that a request for help counts only if nothing before it is wrong.

## Main definitions

* `CommandLine.Options`: what the arguments ask for.
* `CommandLine.parse`: reads the arguments.
-/

namespace ClientSdk

namespace CommandLine

/-- What a run is asked for. -/
structure Options where
  /-- The inputs and outputs of the run. -/
  plan : Plan
  /-- The class models are printed. -/
  emitModel : Bool := false
  /-- How often `-v` is given. -/
  verbosity : Nat := 0
  deriving DecidableEq, Repr, Inhabited

/-- Why there is no run. -/
inductive Stop where
  /-- Help is asked for. -/
  | help
  /-- The version is asked for. -/
  | version
  /-- The arguments are wrong. -/
  | misuse
  deriving DecidableEq, Repr

/-- An option that stands alone. -/
inductive Flag where
  /-- Files are printed. -/
  | dryRun
  /-- Class models are printed. -/
  | emitModel
  /-- More is reported. -/
  | verbose
  /-- Help is printed. -/
  | help
  /-- The version is printed. -/
  | version
  deriving DecidableEq, Repr

/-- An option that takes a value. -/
inductive Setting where
  /-- The schema document. -/
  | schema
  /-- An operation document. -/
  | operations
  /-- The output directory. -/
  | output
  /-- The package of the generated code. -/
  | package
  deriving DecidableEq, Repr

/-- What has been given so far. -/
structure Given where
  /-- The schema document. -/
  schema : Option String := none
  /-- The operation documents. -/
  operations : List String := []
  /-- The output directory. -/
  output : Option String := none
  /-- The package. -/
  package : Option String := none
  /-- Files are printed. -/
  dryRun : Bool := false
  /-- Class models are printed. -/
  emitModel : Bool := false
  /-- How often more reports are asked for. -/
  verbosity : Nat := 0
  deriving DecidableEq, Repr, Inhabited

/-! ### Names -/

/-- The options by their long names. -/
def ofLongName? : String → Option (Flag ⊕ Setting)
  | "schema" => some (.inr .schema)
  | "operations" => some (.inr .operations)
  | "output" => some (.inr .output)
  | "package" => some (.inr .package)
  | "dry-run" => some (.inl .dryRun)
  | "emit-model" => some (.inl .emitModel)
  | "verbose" => some (.inl .verbose)
  | "help" => some (.inl .help)
  | "version" => some (.inl .version)
  | _ => none

/-- The options by their letters. -/
def ofLetter? : Char → Option (Flag ⊕ Setting)
  | 's' => some (.inr .schema)
  | 'o' => some (.inr .output)
  | 'p' => some (.inr .package)
  | 'v' => some (.inl .verbose)
  | 'h' => some (.inl .help)
  | 'V' => some (.inl .version)
  | _ => none

/-! ### Reading -/

namespace Given

/-- Takes note of a flag. Help and the version stop the reading. -/
def raise (given : Given) : Flag → Except Stop Given
  | .dryRun => if given.dryRun then .error .misuse else .ok { given with dryRun := true }
  | .emitModel => if given.emitModel then .error .misuse else .ok { given with emitModel := true }
  | .verbose => .ok { given with verbosity := given.verbosity + 1 }
  | .help => .error .help
  | .version => .error .version

/-- Takes note of a value. A path is not empty, and only operation documents may be several. -/
def set (given : Given) (value : String) : Setting → Except Stop Given
  | .schema =>
    if value.isEmpty || given.schema.isSome then .error .misuse
    else .ok { given with schema := value }
  | .operations =>
    if value.isEmpty then .error .misuse
    else .ok { given with operations := given.operations ++ [value] }
  | .output =>
    if value.isEmpty || given.output.isSome then .error .misuse
    else .ok { given with output := value }
  | .package =>
    if given.package.isSome then .error .misuse else .ok { given with package := value }

/-- The options, when all arguments have been read. A schema and an operation document are
needed. -/
def finish (given : Given) : Except Stop Options :=
  match given.schema, given.operations with
  | some schema, operations@(_ :: _) =>
    let plan : Plan :=
      { schema, operations
        directory := given.output.getD "src/sdk"
        package := given.package.getD usualPackage
        dryRun := given.dryRun }
    .ok { plan, emitModel := given.emitModel, verbosity := given.verbosity }
  | _, _ => .error .misuse

/-- Reads options by their letters. The setting that is returned waits for its value. -/
def readLetters (given : Given) : List Char → Except Stop (Given × Option Setting)
  | [] => .ok (given, none)
  | c :: rest =>
    match ofLetter? c with
    | none => .error .misuse
    | some (.inl flag) =>
      match given.raise flag with
      | .ok given => given.readLetters rest
      | .error stop => .error stop
    | some (.inr setting) =>
      match rest with
      | [] => .ok (given, some setting)
      | '=' :: value => return (← given.set (String.ofList value) setting, none)
      | value => return (← given.set (String.ofList value) setting, none)

/-- Reads an option by its long name, with what stands after an equals sign. -/
def readName (given : Given) (name : String) (value? : Option String) :
    Except Stop (Given × Option Setting) :=
  match ofLongName? name, value? with
  | some (.inl flag), none => return (← given.raise flag, none)
  | some (.inr setting), some value => return (← given.set value setting, none)
  | some (.inr setting), none => .ok (given, some setting)
  | _, _ => .error .misuse

/-- Reads an option. There are no arguments that are none. -/
def readOption (given : Given) (arg : String) : Except Stop (Given × Option Setting) :=
  match arg.toList with
  | '-' :: '-' :: rest =>
    let name := String.ofList (rest.takeWhile (· != '='))
    match rest.dropWhile (· != '=') with
    | _ :: value => given.readName name (some (String.ofList value))
    | [] => given.readName name none
  | '-' :: c :: rest => given.readLetters (c :: rest)
  | _ => .error .misuse

/-- The argument looks like an option. A lone dash does not. -/
def isOption (arg : String) : Bool := arg.front == '-' && arg != "-"

/-- Reads arguments, the first of which is the value that a setting waits for. Two dashes end the
options, and there are no arguments after them. -/
def readFrom (given : Given) (waiting : Option Setting) : List String → Except Stop Given
  | [] => if waiting.isSome then .error .misuse else .ok given
  | arg :: rest =>
    match waiting with
    | some setting =>
      if isOption arg then .error .misuse
      else
        match given.set arg setting with
        | .ok given => given.readFrom none rest
        | .error stop => .error stop
    | none =>
      if arg = "--" then if rest.isEmpty then .ok given else .error .misuse
      else
        match given.readOption arg with
        | .ok (given, waiting) => given.readFrom waiting rest
        | .error stop => .error stop

end Given

/-- What the arguments ask for. -/
def parse (args : List String) : Except Stop Options := do
  (← Given.readFrom {} none args).finish

end CommandLine

end ClientSdk
