import ClientSdk.Document.Token
import ClientSdk.Proofs.Text.Names
import ClientSdk.Schema

/-!
# Names in Schemas

The names of a schema are written as names, but for those of the result markers, which have a
colon and dots. In schema text all of them are names, and two types have one name there only if a
user-declared type is called what a marker is called in schema text.

## Main definitions

* `IsTypeName`: a name, or a marker.
* `TypeDef.GoesBy`: what the names of types and of their fields satisfy.

## Main results

* `nameInSdl_of_isName`: names are written as they are.
* `eq_or_of_nameInSdl_eq`: when two types have one name in schema text.
-/

namespace ClientSdk

open Token

/-! ### Names of types -/

/-- The name is written as a name, or it is that of a result marker. -/
def IsTypeName (name : String) : Prop := isName name = true ∨ name ∈ mutationResults

/-- A marker is not written as a name. -/
theorem isName_of_mem_mutationResults {name : String} (h : name ∈ mutationResults) :
    isName name = false := by
  have hmarkers : ∀ name ∈ mutationResults, isName name = false := by decide
  exact hmarkers name h

/-- In schema text, a marker is written as a name. -/
theorem isName_nameInSdl_of_mem_mutationResults {name : String} (h : name ∈ mutationResults) :
    isName (nameInSdl name) = true := by
  have hmarkers : ∀ name ∈ mutationResults, isName (nameInSdl name) = true := by decide
  exact hmarkers name h

/-- Markers have different names in schema text. -/
theorem eq_of_nameInSdl_eq_of_mem_mutationResults {name other : String}
    (h : name ∈ mutationResults) (hother : other ∈ mutationResults)
    (heq : nameInSdl name = nameInSdl other) : name = other := by
  have hmarkers : ∀ name ∈ mutationResults, ∀ other ∈ mutationResults,
      nameInSdl name = nameInSdl other → name = other := by decide
  exact hmarkers name h other hother heq

/-- A name does not have the reserved prefix. -/
theorem afterReservedMark?_of_isName {name : String} (h : isName name = true) :
    afterReservedMark? name = none := by
  rw [afterReservedMark?, if_neg]
  intro hprefix
  -- The mark ends in a colon, which no name has.
  have hcolon : ':' ∈ name.toList := (List.isPrefixOf_iff_prefix.mp hprefix).subset (by decide)
  exact absurd (List.all_eq_true.mp (all_isNameContinue h) _ hcolon) (by decide)

/-- **A name is written as it is.** -/
theorem nameInSdl_of_isName {name : String} (h : isName name = true) : nameInSdl name = name := by
  rw [nameInSdl, afterReservedMark?_of_isName h]

/-- In schema text, every type has a name. -/
theorem IsTypeName.isName_nameInSdl {name : String} (h : IsTypeName name) :
    isName (nameInSdl name) = true := by
  rcases h with hname | hmarker
  · rw [nameInSdl_of_isName hname, hname]
  · exact isName_nameInSdl_of_mem_mutationResults hmarker

/-- **Two types with one name in schema text** are one type, unless one of them is a marker and
the other has the name that the marker has in schema text. -/
theorem eq_or_of_nameInSdl_eq {name other : String} (h : IsTypeName name)
    (hother : IsTypeName other) (heq : nameInSdl name = nameInSdl other) :
    name = other ∨ (name ∈ mutationResults ∧ other = nameInSdl name) ∨
      (other ∈ mutationResults ∧ name = nameInSdl other) := by
  rcases h with hname | hmarker
  · rw [nameInSdl_of_isName hname] at heq
    rcases hother with hname' | hmarker'
    · rw [nameInSdl_of_isName hname'] at heq
      exact Or.inl heq
    · exact Or.inr (Or.inr ⟨hmarker', heq⟩)
  · rcases hother with hname' | hmarker'
    · rw [nameInSdl_of_isName hname'] at heq
      exact Or.inr (Or.inl ⟨hmarker, heq.symm⟩)
    · exact Or.inl (eq_of_nameInSdl_eq_of_mem_mutationResults hmarker hmarker' heq)

/-! ### Names of types and fields -/

/-- A field goes by a name, and so do its arguments; the types that it refers to go by `P`. -/
structure FieldDef.GoesBy (P : String → Prop) (field : FieldDef) : Prop where
  /-- Its own name. -/
  name : isName field.name = true
  /-- The name at the bottom of its type. -/
  type : P field.type.leafName
  /-- The names of its arguments, and the names at the bottom of their types. -/
  arguments : ∀ arg ∈ field.arguments, isName arg.name = true ∧ P arg.type.leafName

/-- A type and the types that its fields refer to go by `P`; its fields go by names. -/
structure TypeDef.GoesBy (P : String → Prop) (type : TypeDef) : Prop where
  /-- Its own name. -/
  name : P type.name
  /-- The names of its fields. -/
  fields : ∀ field ∈ type.fields, field.GoesBy P

variable {P Q : String → Prop}

theorem FieldDef.GoesBy.mono {field : FieldDef} (h : field.GoesBy P)
    (hweaker : ∀ name, P name → Q name) : field.GoesBy Q :=
  ⟨h.name, hweaker _ h.type, fun arg harg => (h.arguments arg harg).imp_right (hweaker _)⟩

theorem TypeDef.GoesBy.mono {type : TypeDef} (h : type.GoesBy P)
    (hweaker : ∀ name, P name → Q name) : type.GoesBy Q :=
  ⟨hweaker _ h.name, fun field hfield => (h.fields field hfield).mono hweaker⟩

end ClientSdk
