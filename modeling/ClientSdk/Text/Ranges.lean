/-!
# Tables of Character Ranges

Properties of characters are stored as lists of inclusive ranges of code points, and
one-character case mappings as runs of code points that all move by the same distance.

## Main definitions

* `RangeTable.contains`: a character lies in one of the ranges of a table.
* `MappingTable.image?`: the image of a character under a table of runs.
-/

namespace ClientSdk.Text

/-- A set of characters, as inclusive ranges of code points. -/
abbrev RangeTable : Type := List (Nat × Nat)

/-- `c` lies in one of the ranges of the table. -/
def RangeTable.contains (table : RangeTable) (c : Char) : Bool :=
  table.any fun range => range.1 ≤ c.toNat && c.toNat ≤ range.2

/-- A partial map of characters, as runs `(first, last, step, image)`: the code points
`first, first + step, …, last` go to `image, image + step, …`. -/
abbrev MappingTable : Type := List (Nat × Nat × Nat × Nat)

/-- The image of `c`, or `none` when no run of the table holds it. -/
def MappingTable.image? (table : MappingTable) (c : Char) : Option Char :=
  (List.find? (fun (first, last, step, _) =>
      first ≤ c.toNat && c.toNat ≤ last && (c.toNat - first) % step == 0)
    table).map
    fun (first, _, _, image) => Char.ofNat (image + (c.toNat - first))

end ClientSdk.Text
