import ClientSdk.Operation.Reading
import ClientSdk.Proofs.Build.Response
import ClientSdk.Proofs.Fallible

/-!
# Valid Selections

An operation is checked as it is written, with its fragments in place, and read without arguments,
directives and fragments. Each field that is read is one that was checked, on the type that it is
selected from, and so is everything below it. Fields that are answered under one key have been
checked to be one field.

## Main definitions

* `Declarations.Validates`: selections as they are read have been checked on a type.
* `Declarations.Checks`: an operation as it is read has been checked.

## Main results

* `Declarations.Validates.field`: each selected field is one of the type that it is selected from.
* `operationsOfText_eq_ok`: a text whose operations are valid and have names is read.
* `checks_of_operationsOfText`: the operations of a text have been checked.
-/

namespace ClientSdk

/-! ### Selections as lists -/

namespace SelectionDecl

theorem toSelections_eq_map (selections : List SelectionDecl) :
    toSelections selections = selections.map toSelection := by
  induction selections with
  | nil => rw [toSelections, List.map_nil]
  | cons selection selections ih => rw [toSelections, List.map_cons, ih]

/-- A field that is read is written with the same name and the same alias. -/
theorem exists_of_field_mem {selections : List SelectionDecl} {name : String}
    {alias? : Option String} {below : List Selection}
    (h : .field name alias? below ∈ toSelections selections) :
    ∃ arguments directives inner, .field alias? name arguments directives inner ∈ selections ∧
      below = toSelections inner := by
  rw [toSelections_eq_map] at h
  obtain ⟨selection, hselection, heq⟩ := List.mem_map.mp h
  cases selection with
  | field alias? name arguments directives inner =>
      rw [toSelection] at heq
      obtain ⟨rfl, rfl, rfl⟩ := Selection.field.inj heq
      exact ⟨arguments, directives, inner, hselection, rfl⟩
  | spread fragment directives => simp [toSelection] at heq
  | inlineFragment condition directives inner => simp [toSelection] at heq

/-- Fragments that are put in place leave a field where it is, with the fragments below it in
place. -/
theorem exists_field_of_inlineAllWith? {resolve : String → Option (String × List SelectionDecl)}
    {selections placed : List SelectionDecl} (h : inlineAllWith? resolve selections = some placed)
    {alias? : Option String} {name : String} {arguments : List (String × Value)}
    {directives : List Directive} {inner : List SelectionDecl}
    (hfield : .field alias? name arguments directives inner ∈ selections) :
    ∃ below, inlineAllWith? resolve inner = some below ∧
      .field alias? name arguments directives below ∈ placed := by
  induction selections generalizing placed with
  | nil => exact absurd hfield List.not_mem_nil
  | cons selection selections ih =>
      simp only [inlineAllWith?, Option.bind_eq_bind, Option.bind_eq_some_iff,
        Option.pure_def, Option.some.injEq] at h
      obtain ⟨first, hfirst, rest, hrest, rfl⟩ := h
      rcases List.mem_cons.mp hfield with rfl | hmem
      · simp only [inlineWith?, Option.bind_eq_bind, Option.bind_eq_some_iff,
          Option.pure_def, Option.some.injEq] at hfirst
        obtain ⟨below, hbelow, rfl⟩ := hfirst
        exact ⟨below, hbelow, List.mem_cons_self⟩
      · obtain ⟨below, hbelow, hplaced⟩ := ih hrest hmem
        exact ⟨below, hbelow, List.mem_cons_of_mem _ hplaced⟩

end SelectionDecl

/-- The selections of a field stand for themselves. -/
theorem SelectedField.mk_mem_ofSelections {selections : List SelectionDecl}
    {alias? : Option String} {name : String} {arguments : List (String × Value)}
    {directives : List Directive} {inner : List SelectionDecl}
    (h : .field alias? name arguments directives inner ∈ selections) :
    mk (alias?.getD name) name arguments (ofSelections inner) ∈ ofSelections selections := by
  induction selections with
  | nil => exact absurd h List.not_mem_nil
  | cons selection selections ih =>
      rw [ofSelections]
      rcases List.mem_cons.mp h with rfl | hmem
      · rw [ofSelection]
        exact List.mem_append_left _ (List.mem_singleton_self _)
      · exact List.mem_append_right _ (ih hmem)

/-- **Fields that can be merged** and have one key are one field. -/
theorem SelectedField.name_eq_of_canMerge {selected : List SelectedField}
    (h : canMerge selected = true) {key name name' : String}
    {arguments arguments' : List (String × Value)} {below below' : List SelectedField}
    (hfield : mk key name arguments below ∈ selected)
    (hfield' : mk key name' arguments' below' ∈ selected) : name = name' := by
  obtain ⟨levels, hlevels⟩ : ∃ levels, depthOfAll selected = levels + 1 := by
    refine Nat.exists_eq_succ_of_ne_zero ?_
    cases selected with
    | nil => exact absurd hfield List.not_mem_nil
    | cons first rest =>
        cases first with
        | mk _ _ _ _ => rw [depthOfAll, depth]; omega
  rw [canMerge, hlevels, canMergeWithin, List.all_eq_true] at h
  have hkey := h key (List.mem_eraseDups.mpr (List.mem_map_of_mem (f := SelectedField.key) hfield))
  have hmem : ∀ name arguments below, mk key name arguments below ∈ selected →
      mk key name arguments below ∈ selected.filter (·.key == key) := fun _ _ _ hmem =>
    List.mem_filter.mpr ⟨hmem, beq_self_eq_true key⟩
  have hfirst := hmem _ _ _ hfield
  have hsecond := hmem _ _ _ hfield'
  -- All fields with the key are the same field as the first of them.
  cases hsame : selected.filter (·.key == key) with
  | nil =>
      rw [hsame] at hfirst
      exact absurd hfirst List.not_mem_nil
  | cons first others =>
      rw [hsame] at hkey hfirst hsecond
      rw [Bool.and_eq_true, List.all_eq_true] at hkey
      obtain ⟨firstKey, firstName, firstArguments, firstBelow⟩ := first
      have hname : ∀ key name arguments below, mk key name arguments below ∈
          mk firstKey firstName firstArguments firstBelow :: others → firstName = name := by
        intro key name arguments below hmem
        rcases List.mem_cons.mp hmem with heq | hother
        · exact (SelectedField.mk.inj heq).2.1.symm
        · have hfield := hkey.1 _ hother
          rw [isSameField, Bool.and_eq_true, Bool.and_eq_true, beq_iff_eq] at hfield
          exact hfield.1.1
      exact (hname _ _ _ _ hfirst).symm.trans (hname _ _ _ _ hsecond)

/-! ### What has been checked -/

namespace Declarations

variable {declarations : Declarations}

/-- Selections are valid when each of them is. -/
theorem areValidSelections_eq_all (vars : List VariableDecl) (parent : String)
    (selections : List SelectionDecl) :
    declarations.areValidSelections vars parent selections =
      selections.all (declarations.isValidSelection vars parent) := by
  induction selections with
  | nil => rw [areValidSelections, List.all_nil]
  | cons selection selections ih => rw [areValidSelections, List.all_cons, ih]

/-- The selections have been read from valid ones on the type `parent`. -/
def Validates (declarations : Declarations) (parent : String) (selections : List Selection) :
    Prop :=
  ∃ written vars resolve placed, selections = SelectionDecl.toSelections written ∧
    SelectionDecl.inlineAllWith? resolve written = some placed ∧
    declarations.areValidSelections vars parent placed = true

/-- **A field of valid selections** is a field of the type that it is selected from. Something
is selected below it unless its type is a leaf, and that is valid on its type. -/
theorem Validates.field {parent : String} {selections : List Selection}
    (h : declarations.Validates parent selections) {name : String} {alias? : Option String}
    {below : List Selection} (hfield : .field name alias? below ∈ selections) :
    ∃ field, (declarations.fields parent).find? (·.name == name) = some field ∧
      (declarations.isLeaf field.type.leafName = false → below ≠ []) ∧
      declarations.Validates field.type.leafName below := by
  obtain ⟨written, vars, resolve, placed, rfl, hplaced, hvalid⟩ := h
  obtain ⟨arguments, directives, inner, hwritten, rfl⟩ :=
    SelectionDecl.exists_of_field_mem hfield
  obtain ⟨innerPlaced, hinner, hmem⟩ :=
    SelectionDecl.exists_field_of_inlineAllWith? hplaced hwritten
  rw [areValidSelections_eq_all, List.all_eq_true] at hvalid
  have hselection := hvalid _ hmem
  rw [isValidSelection] at hselection
  split at hselection
  · rename_i field hfind
    simp only [Bool.and_eq_true, beq_iff_eq] at hselection
    obtain ⟨⟨-, hleaf⟩, hbelow⟩ := hselection
    refine ⟨field, hfind, fun hobject hempty => ?_, inner, vars, resolve, innerPlaced, rfl, hinner,
      hbelow⟩
    -- Where nothing is written, nothing is put in place.
    rw [SelectionDecl.toSelections_eq_map, List.map_eq_nil_iff] at hempty
    subst hempty
    rw [SelectionDecl.inlineAllWith?, Option.some.injEq] at hinner
    subst hinner
    rw [hobject] at hleaf
    exact Bool.false_ne_true hleaf
  · cases hselection

/-- The kind of root that an operation starts from. -/
def rootKind : OperationKind → RootKind
  | .query => .query
  | .mutation => .mutation

/-- The operation has been read from a valid one. -/
structure Checks (declarations : Declarations) (operation : Operation) : Prop where
  /-- Its variables have input types. -/
  vars : ∀ var ∈ operation.vars,
    declarations.bodySatisfies TypeBody.isInput var.type.leafName = true
  /-- What it selects is valid on its root. -/
  selections : ∃ root, declarations.root? (rootKind operation.kind) = some root ∧
    declarations.Validates root operation.selections
  /-- Fields with one response key are one field. -/
  keys : ConsistentKeys operation

/-- Fragments are put in place by some assignment of selections to their names. -/
theorem exists_resolve_of_inlineFragments? {fragments : List FragmentDecl} {depth : Nat}
    {selections placed : List SelectionDecl}
    (h : inlineFragments? fragments depth selections = some placed) :
    ∃ resolve, SelectionDecl.inlineAllWith? resolve selections = some placed := by
  cases depth with
  | zero => exact ⟨_, h⟩
  | succ depth => exact ⟨_, h⟩

/-- Fields of valid selections with one response key are one field. -/
theorem consistentKeys_of_canMerge {operation : Operation}
    {resolve : String → Option (String × List SelectionDecl)}
    {written placed : List SelectionDecl}
    (hselections : operation.selections = SelectionDecl.toSelections written)
    (hplaced : SelectionDecl.inlineAllWith? resolve written = some placed)
    (hmerge : SelectedField.canMerge (SelectedField.ofSelections placed) = true) :
    ConsistentKeys operation := by
  have hselected : ∀ name alias? below, .field name alias? below ∈ operation.selections →
      ∃ arguments inner, SelectedField.mk (alias?.getD name) name arguments inner ∈
        SelectedField.ofSelections placed := by
    intro name alias? below hmem
    rw [hselections] at hmem
    obtain ⟨arguments, directives, inner, hwritten, -⟩ := SelectionDecl.exists_of_field_mem hmem
    obtain ⟨innerPlaced, -, hfield⟩ :=
      SelectionDecl.exists_field_of_inlineAllWith? hplaced hwritten
    exact ⟨arguments, _, SelectedField.mk_mem_ofSelections hfield⟩
  intro entry hentry other hother hkey
  cases entry with
  | field name alias? below =>
      cases other with
      | field name' alias?' below' =>
          obtain ⟨arguments, inner, hfield⟩ := hselected _ _ _ hentry
          obtain ⟨arguments', inner', hfield'⟩ := hselected _ _ _ hother
          rw [Option.some.inj hkey] at hfield
          exact congrArg some (SelectedField.name_eq_of_canMerge hmerge hfield hfield')
      | spread _ => cases hkey
      | inlineFragment _ => cases hkey
  | spread _ =>
      cases other with
      | field _ _ _ => cases hkey
      | spread _ => rfl
      | inlineFragment _ => rfl
  | inlineFragment _ =>
      cases other with
      | field _ _ _ => cases hkey
      | spread _ => rfl
      | inlineFragment _ => rfl

/-- The parts of an operation that is read. -/
theorem toOperation_eq_ok {declaration : OperationDecl} {operation : Operation}
    (h : declaration.toOperation = .ok operation) :
    operation.name = declaration.name.getD "" ∧ declaration.kind = rootKind operation.kind ∧
      operation.vars = declaration.vars.map (·.toVariable) ∧
      operation.selections = SelectionDecl.toSelections declaration.selections := by
  rw [OperationDecl.toOperation] at h
  dsimp only at h
  split at h
  · rename_i hkind
    obtain rfl := Except.ok.inj h
    exact ⟨rfl, hkind, rfl, rfl⟩
  · rename_i hkind
    obtain rfl := Except.ok.inj h
    exact ⟨rfl, hkind, rfl, rfl⟩
  · cases h

/-- A valid operation has been checked as it is read. -/
theorem checks_of_isValidOperation {fragments : List FragmentDecl} {declaration : OperationDecl}
    {operation : Operation} (h : declaration.toOperation = .ok operation)
    (hvalid : declarations.isValidOperation fragments declaration = true) :
    declarations.Checks operation := by
  obtain ⟨-, hkind, hvars, hselections⟩ := toOperation_eq_ok h
  rw [isValidOperation] at hvalid
  dsimp only at hvalid
  split at hvalid
  · rename_i root placed hroot hplaced
    obtain ⟨resolve, hresolve⟩ := exists_resolve_of_inlineFragments? hplaced
    simp only [Bool.and_eq_true, List.all_eq_true] at hvalid
    obtain ⟨⟨⟨⟨-, hinputs⟩, -⟩, hselected⟩, hmerge⟩ := hvalid
    refine ⟨?_, ⟨root, hkind ▸ hroot, _, _, resolve, placed, hselections, hresolve, hselected⟩,
      consistentKeys_of_canMerge hselections hresolve hmerge⟩
    intro var hvar
    rw [hvars] at hvar
    obtain ⟨written, hwritten, rfl⟩ := List.mem_map.mp hvar
    have hinput := hinputs written hwritten
    rw [isValidVariable, Bool.and_eq_true, Bool.and_eq_true] at hinput
    exact hinput.1.1
  · cases hvalid

end Declarations

/-- A text whose operations are valid and have names is read operation by operation. -/
theorem operationsOfText_eq_ok {valid : ValidSchema} {text path : String} {document : Document}
    {operations : List Operation} (hparse : Document.parse? text = some document)
    (hvalid : valid.declarations.isValidOperations document = true)
    (hnamed : (document.operations.any fun operation => operation.name.isNone) = false)
    (hread : document.operations.mapM (·.toOperation) = .ok operations) :
    operationsOfText valid text path = .ok operations := by
  rw [operationsOfText, hparse]
  dsimp only
  rw [hvalid, hnamed]
  exact hread

/-- **The operations of a text have been checked** against the declarations that they are read
with. -/
theorem checks_of_operationsOfText {valid : ValidSchema} {text path : String}
    {operations : List Operation} (h : operationsOfText valid text path = .ok operations)
    {operation : Operation} (hoperation : operation ∈ operations) :
    valid.declarations.Checks operation := by
  rw [operationsOfText] at h
  split at h
  · cases h
  · rename_i document _
    split at h
    · cases h
    · rename_i hvalid
      split at h
      · cases h
      · obtain ⟨declaration, hdeclaration, hread⟩ := exists_of_mem_mapM h hoperation
        rw [Bool.not_eq_true', Bool.not_eq_false, Declarations.isValidOperations] at hvalid
        simp only [Bool.and_eq_true, List.all_eq_true] at hvalid
        exact Declarations.checks_of_isValidOperation hread (hvalid.2 declaration hdeclaration)

end ClientSdk
