import ClientSdk.Augmentation

/-!
# Events of a Run

What a generation run reports while it goes on, one event for each completed step.

## Main definitions

* `RunEvent`, `RunEvent.describe`, `RunEvent.verbosity`.
-/

namespace ClientSdk

/-- A completed step of a run. -/
inductive RunEvent where
  /-- A schema document has been read, with so many user types. -/
  | loadedSchema (path : String) (types : Nat)
  /-- Augmentation has added a declaration. -/
  | added (change : Addition)
  /-- The augmented schema has been validated. -/
  | validated
  /-- An operation document has been read, with so many operations. -/
  | loadedOperations (path : String) (count : Nat)
  /-- The model of an operation has been built. -/
  | builtModel (operation : String) (kind : OperationKind)
  /-- A file has been written. -/
  | wrote (path : String)
  /-- A file has been printed. -/
  | printed (fileName : String)
  deriving DecidableEq, Repr

/-- An event in words. -/
def RunEvent.describe : RunEvent → String
  | loadedSchema path types => s!"loaded schema {path} ({types} user types)"
  | added change => s!"added {change.describe}"
  | validated => "augmented schema validated"
  | loadedOperations path count => s!"loaded {count} operations from {path}"
  | builtModel operation kind => s!"built model for {kind.keyword} {operation}"
  | wrote path => s!"wrote {path}"
  | printed fileName => s!"printed {fileName}"

/-- How often more reports have to be asked for until an event is reported. -/
def RunEvent.verbosity : RunEvent → Nat
  | added _ => 2
  | _ => 1

end ClientSdk
