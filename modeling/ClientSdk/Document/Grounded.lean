/-!
# Cycles of References

Names that refer to names. A list of them is grounded when no name leads back to itself; this is
found by leaving out, round after round, the names that refer to none of those still there.

## Main definitions

* `References.isGrounded`: no name leads back to itself.
-/

namespace ClientSdk

/-- Names with the names that they refer to. -/
abbrev References := List (String × List String)

namespace References

/-- The names that refer to one of those that are there. -/
def dependent (references : References) : References :=
  references.filter fun entry => entry.2.any (references.map Prod.fst).contains

/-- The names that are left after `rounds` rounds. -/
def dependentAfter : Nat → References → References
  | 0, references => references
  | rounds + 1, references => dependentAfter rounds references.dependent

/-- No name leads back to itself: as long as there are names, each round leaves one out. -/
def isGrounded (references : References) : Bool :=
  (dependentAfter references.length references).isEmpty

end References

end ClientSdk
