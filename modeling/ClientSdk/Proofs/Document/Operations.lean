import ClientSdk.Proofs.Document.Names
import ClientSdk.Proofs.Validation.Selections

/-!
# Names in Operation Documents

An operation, its variables and its entries go by names, like everything in a document. An entry is
answered under its alias, or else under the name of its field, and so under a name in either case.

## Main definitions

* `Operation.IsNamed`: what code is generated for in an operation goes by names.

## Main results

* `Document.isNamed_operations`: the operations of a document go by names.
* `isNamed_of_operationsOfText`: the operations that are read from a text go by names.
-/

namespace ClientSdk

open Token

/-! ### Named operations -/

/-- An operation, its variables and the keys of its response go by names. -/
structure Operation.IsNamed (operation : Operation) : Prop where
  /-- Its own name. -/
  name : isName operation.name = true
  /-- The names of its variables. -/
  vars : ∀ var ∈ operation.vars, isName var.name = true
  /-- The keys of its response. -/
  keys : ∀ key ∈ responseKeys operation.selections, isName key = true

/-! ### Reading operations -/

/-- **The operations of a document go by names.** -/
theorem Document.isNamed_operations {text : String} {document : Document}
    (h : Document.parse? text = some document) :
    ∀ declaration ∈ document.operations, declaration.IsNamed := by
  intro declaration hdeclaration
  rw [operations, List.mem_filterMap] at hdeclaration
  obtain ⟨definition, hdefinition, heq⟩ := hdeclaration
  refine (forall_mem_of_parse? Parser.keeps_definition h definition hdefinition).2 declaration ?_
  cases definition with
  | operation _ => exact congrArg Definition.operation (Option.some.inj heq)
  | _ => cases heq

/-- The key of an entry is its alias or the name of its field. -/
theorem isName_of_mem_responseKeys {selections : List SelectionDecl}
    (h : ∀ selection ∈ selections, selection.IsNamed) :
    ∀ key ∈ responseKeys (SelectionDecl.toSelections selections), isName key = true := by
  intro key hkey
  obtain ⟨selection, hselection, heq⟩ := List.mem_filterMap.mp hkey
  cases selection with
  | spread _ => cases heq
  | inlineFragment _ => cases heq
  | field label alias? below =>
      obtain ⟨_, _, _, hmem, -⟩ := SelectionDecl.exists_of_field_mem hselection
      obtain ⟨hlabel, halias⟩ := h _ hmem
      rw [Selection.responseKey?, Option.some.injEq] at heq
      cases alias? with
      | none => exact heq ▸ hlabel
      | some other => exact heq ▸ halias other rfl

/-- What is made of an operation that goes by names goes by names, if it has a name. -/
theorem OperationDecl.IsNamed.toOperation {declaration : OperationDecl} (h : declaration.IsNamed)
    (hname : declaration.name.isNone = false) {operation : Operation}
    (hread : declaration.toOperation = .ok operation) : operation.IsNamed := by
  obtain ⟨hown, -, hvars, hselections⟩ := Declarations.toOperation_eq_ok hread
  obtain ⟨label, hlabel⟩ := Option.isSome_iff_exists.mp (Option.isNone_eq_false_iff.mp hname)
  refine ⟨?_, ?_, ?_⟩
  · rw [hown, hlabel, Option.getD_some]
    exact h.name label hlabel
  · rw [hvars, List.forall_mem_map]
    exact h.vars
  · rw [hselections]
    exact isName_of_mem_responseKeys h.selections

/-- **The operations that are read from a text go by names.** -/
theorem isNamed_of_operationsOfText {valid : ValidSchema} {text path : String}
    {operations : List Operation} (h : operationsOfText valid text path = .ok operations) :
    ∀ operation ∈ operations, operation.IsNamed := by
  intro operation hoperation
  rw [operationsOfText] at h
  split at h
  · cases h
  rename_i document hparse
  split at h
  · cases h
  split at h
  · cases h
  rename_i hnames
  obtain ⟨declaration, hdeclaration, hread⟩ := exists_of_mem_mapM h hoperation
  rw [List.any_eq_true, not_exists] at hnames
  exact (Document.isNamed_operations hparse declaration hdeclaration).toOperation
    (Bool.eq_false_iff.mpr fun hnone => hnames declaration ⟨hdeclaration, hnone⟩) hread

end ClientSdk
