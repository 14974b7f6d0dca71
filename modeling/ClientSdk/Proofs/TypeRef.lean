import ClientSdk.ClassModel

/-!
# References to Types

What holds of every reference, however deep its lists. A reference is known by its levels and
by the name at the bottom of them. The name can be replaced without a change to the levels, and
a generated class has a type with the same levels.

The notation of a reference puts brackets and exclamation marks around the name. So it shows the
levels as long as the name has no such character, and the name `[Movie]` looks like a list. Each
level is read in two steps, one for the mark at the end and one for the brackets.

## Main definitions

* `TypeRef.levels`, `MemberType.levels`: where a reference allows null, level by level.
* `TypeRef.HasPlainLeaf`: the name at the bottom has no character that the notation puts
  around it.

## Main results

* `TypeRef.eq_of_levels_eq`: a reference is known by its levels and the name at the bottom.
* `TypeRef.sdl_ofSdl`: every text is the notation of the reference that is read from it.
* `TypeRef.ofSdl_sdl`: a reference with a plain name is read back from its notation.
* `TypeRef.ofSdl_eq_iff`: so it is the one that is read from a text if the text is its notation.
* `TypeRef.sdl_unambiguous_leaf_lens`: the notation, the name at the bottom and the type in a
  generated class, for every reference.
-/

namespace ClientSdk

namespace TypeRef

variable {type : TypeRef} {fuel : Nat} {cs body : List Char} {nullable : Bool}

/-! ### Levels of a reference -/

/-- Whether null is allowed, level by level from the outside. Every level but the last is a
list. -/
def levels : TypeRef → List Bool
  | named _ nullable => [nullable]
  | list element nullable => nullable :: element.levels

/-- Another name at the bottom keeps every level. -/
theorem levels_withLeafName (type : TypeRef) (name : String) :
    (type.withLeafName name).levels = type.levels := by
  induction type with
  | named leaf nullable => rfl
  | list element nullable ih => rw [withLeafName, levels, levels, ih]

/-- The name at the bottom is the one that was put there. -/
theorem leafName_withLeafName (type : TypeRef) (name : String) :
    (type.withLeafName name).leafName = name := by
  induction type with
  | named leaf nullable => rfl
  | list element nullable ih => rw [withLeafName, leafName, ih]

/-- Null can be allowed at the outermost level without a change to any other. -/
theorem levels_withNullable (type : TypeRef) (nullable : Bool) :
    (type.withNullable nullable).levels = nullable :: type.levels.tail := by
  cases type with
  | named leaf old => rfl
  | list element old => rfl

/-- Null at the outermost level has nothing to do with the name at the bottom. -/
theorem leafName_withNullable (type : TypeRef) (nullable : Bool) :
    (type.withNullable nullable).leafName = type.leafName := by
  cases type with
  | named leaf old => rfl
  | list element old => rfl

/-- There is a level, that of the name. -/
theorem levels_ne_nil (type : TypeRef) : type.levels ≠ [] := by
  cases type with
  | named leaf nullable => exact List.cons_ne_nil _ _
  | list element nullable => exact List.cons_ne_nil _ _

/-- **A reference is known by its levels and the name at the bottom.** -/
theorem eq_of_levels_eq {other : TypeRef} (hlevels : type.levels = other.levels)
    (hleaf : type.leafName = other.leafName) : type = other := by
  induction type generalizing other with
  | named leaf nullable =>
      cases other with
      | named leaf' nullable' =>
          obtain rfl : leaf = leaf' := hleaf
          obtain rfl : nullable = nullable' := (List.cons.inj hlevels).1
          rfl
      | list element nullable' =>
          exact absurd (List.cons.inj hlevels).2.symm (levels_ne_nil element)
  | list element nullable ih =>
      cases other with
      | named leaf nullable' =>
          exact absurd (List.cons.inj hlevels).2 (levels_ne_nil element)
      | list element' nullable' =>
          obtain ⟨rfl, hrest⟩ := List.cons.inj hlevels
          rw [ih hrest hleaf]

/-- The name at the bottom of a type can be put there. -/
theorem withLeafName_leafName (type : TypeRef) :
    type.withLeafName type.leafName = type :=
  eq_of_levels_eq (levels_withLeafName type _) (leafName_withLeafName type _)

/-- Of two names that are put at the bottom, the second one stays. -/
theorem withLeafName_withLeafName (type : TypeRef) (first second : String) :
    (type.withLeafName first).withLeafName second = type.withLeafName second := by
  apply eq_of_levels_eq
  · rw [levels_withLeafName, levels_withLeafName, levels_withLeafName]
  · rw [leafName_withLeafName, leafName_withLeafName]

/-! ### Reading one level -/

/-- The mark behind a level: an exclamation mark where null is excluded. -/
def nullMark (nullable : Bool) : List Char := if nullable then [] else ['!']

/-- What is written for a name is the name and the mark. -/
theorem toList_sdl_named (name : String) (nullable : Bool) :
    (named name nullable).sdl.toList = name.toList ++ nullMark nullable := by
  cases nullable <;> simp [sdl, nullMark]

/-- What is written for a list stands in brackets in front of the mark. -/
theorem toList_sdl_list (element : TypeRef) (nullable : Bool) :
    (list element nullable).sdl.toList =
      '[' :: (element.sdl.toList ++ [']']) ++ nullMark nullable := by
  cases nullable <;> simp [sdl, nullMark]

/-- Every text has a mark at its end, which may be the empty one. -/
theorem exists_append_nullMark (cs : List Char) :
    ∃ body nullable, cs = body ++ nullMark nullable ∧
      (nullable = true → body.getLast? ≠ some '!') := by
  by_cases hlast : cs.getLast? = some '!'
  · obtain ⟨body, rfl⟩ := List.getLast?_eq_some_iff.mp hlast
    exact ⟨body, false, rfl, nofun⟩
  · exact ⟨cs, true, (List.append_nil cs).symm, fun _ => hlast⟩

/-- Brackets are taken off exactly where they are. -/
theorem unbracket?_eq_some_iff {inner : List Char} :
    unbracket? cs = some inner ↔ cs = '[' :: (inner ++ [']']) := by
  constructor
  · intro h
    unfold unbracket? at h
    split at h
    case h_1 rest =>
      split at h
      case isTrue hlast =>
        obtain ⟨inner', rfl⟩ := List.getLast?_eq_some_iff.mp hlast
        rw [List.dropLast_concat] at h
        rw [Option.some.inj h]
      case isFalse => exact nomatch h
    case h_2 => exact nomatch h
  · rintro rfl
    simp [unbracket?]

/-- The mark is taken off first. What is left may end in an exclamation mark only if null is
excluded. -/
theorem ite_append_nullMark (hmark : nullable = true → body.getLast? ≠ some '!') :
    (if (body ++ nullMark nullable).getLast? = some '!' then
      ((body ++ nullMark nullable).dropLast, false)
    else (body ++ nullMark nullable, true)) = (body, nullable) := by
  cases nullable with
  | false => simp [nullMark]
  | true => simp [nullMark, hmark rfl]

/-- Brackets with a mark behind them are read as a list. -/
theorem ofCharsFueled_list (fuel : Nat) (inner : List Char) (nullable : Bool) :
    ofCharsFueled (fuel + 1) ('[' :: (inner ++ [']']) ++ nullMark nullable) =
      list (ofCharsFueled fuel inner) nullable := by
  have hinner : unbracket? ('[' :: (inner ++ [']'])) = some inner :=
    unbracket?_eq_some_iff.mpr rfl
  have hmark : ('[' :: (inner ++ [']'])).getLast? ≠ some '!' := by
    rw [← List.cons_append, List.getLast?_concat]
    decide
  rw [ofCharsFueled, ite_append_nullMark fun _ => hmark]
  simp only [hinner]

/-- Without brackets, what stands before the mark is read as a name. -/
theorem ofCharsFueled_named (fuel : Nat) (hbody : unbracket? body = none)
    (hmark : nullable = true → body.getLast? ≠ some '!') :
    ofCharsFueled (fuel + 1) (body ++ nullMark nullable) =
      named (String.ofList body) nullable := by
  rw [ofCharsFueled, ite_append_nullMark hmark]
  simp only [hbody]

/-! ### Reading a reference -/

/-- What is read can be written again, however few levels are read. Text below the last of them
is taken as a name, which is written as it is. -/
theorem sdl_ofCharsFueled (fuel : Nat) (cs : List Char) :
    (ofCharsFueled fuel cs).sdl = String.ofList cs := by
  induction fuel generalizing cs with
  | zero => exact String.append_empty
  | succ fuel ih =>
      obtain ⟨body, nullable, rfl, hmark⟩ := exists_append_nullMark cs
      apply String.toList_injective
      cases hbody : unbracket? body with
      | none =>
          rw [ofCharsFueled_named fuel hbody hmark, toList_sdl_named, String.toList_ofList,
            String.toList_ofList]
      | some inner =>
          obtain rfl := unbracket?_eq_some_iff.mp hbody
          rw [ofCharsFueled_list, toList_sdl_list, ih, String.toList_ofList,
            String.toList_ofList]

/-- **Every text is the notation of the reference that is read from it.** -/
theorem sdl_ofSdl (text : String) : (ofSdl text).sdl = text := by
  rw [ofSdl, sdl_ofCharsFueled, String.ofList_toList]

/-- The name at the bottom has no character that the notation puts around it. -/
def HasPlainLeaf (type : TypeRef) : Prop :=
  '[' ∉ type.leafName.toList ∧ ']' ∉ type.leafName.toList ∧ '!' ∉ type.leafName.toList

instance : DecidablePred HasPlainLeaf := fun _ => inferInstanceAs (Decidable (_ ∧ _ ∧ _))

/-- With as many levels as the text has characters, the reference is read to its bottom: each
list takes two brackets. -/
theorem ofCharsFueled_toList_sdl (hplain : type.HasPlainLeaf)
    (hfuel : type.sdl.toList.length ≤ fuel) :
    ofCharsFueled (fuel + 1) type.sdl.toList = type := by
  induction type generalizing fuel with
  | named name nullable =>
      obtain ⟨hopening, -, hexclamation⟩ := hplain
      have hbody : unbracket? name.toList = none := by
        rw [Option.eq_none_iff_forall_ne_some]
        intro inner h
        exact hopening (unbracket?_eq_some_iff.mp h ▸ List.mem_cons_self)
      have hlast : name.toList.getLast? ≠ some '!' := fun h =>
        hexclamation (List.mem_of_getLast? h)
      rw [toList_sdl_named, ofCharsFueled_named fuel hbody fun _ => hlast, String.ofList_toList]
  | list element nullable ih =>
      have hlength : element.sdl.toList.length + 2 ≤ fuel := by
        rw [toList_sdl_list, List.length_append, List.length_cons, List.length_append,
          List.length_singleton] at hfuel
        omega
      obtain ⟨fuel, rfl⟩ : ∃ rest, fuel = rest + 1 := ⟨fuel - 1, by omega⟩
      rw [toList_sdl_list, ofCharsFueled_list, ih hplain (by omega)]

/-- **A reference with a plain name is read back from its notation.** -/
theorem ofSdl_sdl (hplain : type.HasPlainLeaf) : ofSdl type.sdl = type :=
  ofCharsFueled_toList_sdl hplain (Nat.le_refl _)

/-- A text is the notation of one reference with a plain name at most, the one that is read. -/
theorem ofSdl_eq_iff (hplain : type.HasPlainLeaf) {text : String} :
    ofSdl text = type ↔ type.sdl = text := by
  constructor
  · rintro rfl
    exact sdl_ofSdl text
  · rintro rfl
    exact ofSdl_sdl hplain

/-- References with plain names are the same if their notation is. -/
theorem eq_of_sdl_eq {other : TypeRef} (hplain : type.HasPlainLeaf)
    (hother : other.HasPlainLeaf) (hsdl : type.sdl = other.sdl) : type = other := by
  have hread : ofSdl other.sdl = type := (ofSdl_eq_iff hplain).mpr hsdl
  exact hread.symm.trans (ofSdl_sdl hother)

end TypeRef

namespace MemberType

/-! ### Types in generated classes -/

/-- The name at the bottom of the list levels. -/
def leafName : MemberType → String
  | .named name _ => name
  | .list element _ => element.leafName

/-- Whether null is allowed, level by level from the outside. Every level but the last is a
list. -/
def levels : MemberType → List Bool
  | .named _ nullable => [nullable]
  | .list element nullable => nullable :: element.levels

/-- At the bottom of a type stands the name in classes of what stands at the bottom in the
schema. -/
theorem leafName_ofRef (type : TypeRef) :
    (MemberType.ofRef type).leafName = memberName type.leafName := by
  induction type with
  | named name nullable => rfl
  | list element nullable ih => exact ih

/-- A type has its levels from the schema. -/
theorem levels_ofRef (type : TypeRef) : (MemberType.ofRef type).levels = type.levels := by
  induction type with
  | named name nullable => rfl
  | list element nullable ih => rw [ofRef, levels, TypeRef.levels, ih]

end MemberType

/-! ### The laws of references -/

/-- **The notation of references is unambiguous, and the name at the bottom is a lens.** Two
references with plain names are the same if their notation is. What is put at the bottom is read
there, to put back what is read changes nothing, and of two names that are put there the second
one stays. A generated class has a type with the levels of the reference, and with the name at
the bottom as it is in classes. -/
theorem TypeRef.sdl_unambiguous_leaf_lens (type : TypeRef) :
    (∀ other : TypeRef, type.HasPlainLeaf → other.HasPlainLeaf → type.sdl = other.sdl →
      type = other) ∧
    (∀ name, (type.withLeafName name).leafName = name ∧
      (type.withLeafName name).levels = type.levels) ∧
    type.withLeafName type.leafName = type ∧
    (∀ first second,
      (type.withLeafName first).withLeafName second = type.withLeafName second) ∧
    (MemberType.ofRef type).levels = type.levels ∧
    (MemberType.ofRef type).leafName = memberName type.leafName := by
  refine ⟨fun other => eq_of_sdl_eq, fun name => ⟨?_, ?_⟩, ?_, fun first second => ?_, ?_, ?_⟩
  · exact leafName_withLeafName type name
  · exact levels_withLeafName type name
  · exact withLeafName_leafName type
  · exact withLeafName_withLeafName type first second
  · exact MemberType.levels_ofRef type
  · exact MemberType.leafName_ofRef type

/-- The notation of `[[ID!]!]` is read as this reference and no other. -/
theorem TypeRef.sdl_unambiguous_leaf_lens_ids :
    (ofSdl "[[ID!]!]").HasPlainLeaf ∧
      (list (list (named "ID" false) false) true).HasPlainLeaf ∧
      (ofSdl "[[ID!]!]").sdl = (list (list (named "ID" false) false) true).sdl ∧
      ofSdl "[[ID!]!]" = list (list (named "ID" false) false) true := by
  have hread : (ofSdl "[[ID!]!]").HasPlainLeaf := by decide
  have hbuilt : (list (list (named "ID" false) false) true).HasPlainLeaf := by decide
  have hsdl : (ofSdl "[[ID!]!]").sdl = (list (list (named "ID" false) false) true).sdl := by
    decide
  exact ⟨hread, hbuilt, hsdl, (sdl_unambiguous_leaf_lens _).1 _ hread hbuilt hsdl⟩

/-- A name with brackets makes a reference look like a list. -/
example : (TypeRef.named "[Movie]" true).sdl = (TypeRef.list (.named "Movie" true) true).sdl := by
  decide

end ClientSdk
