import ClientSdk.Document.Declarations
import ClientSdk.Proofs.Schema.Printing

/-!
# Schema Text Is Read Back

The text of a schema is read back as the document that declares the same types. Nothing stands in
the way of that but what has no place in a document: a documentation with a carriage return, a type
without fields, and an input type whose fields take arguments.

## Main definitions

* `TypeDef.toDecl`, `Schema.document`: what schema text declares.
* `TypeDef.isReadable`: the text of a type can be read back.

## Main results

* `Parser.definition_type`: the tokens of a type are read back as its declaration.
* `Schema.parse?_sdl`: schema text is read back as its document, if each type can be read back.
-/

namespace ClientSdk

open Token

/-! ### What schema text declares -/

/-- What an argument declares. -/
def ArgumentDef.toDecl (arg : ArgumentDef) : InputDecl where
  name := arg.name
  type := arg.type.withNameInSdl

/-- What a field of an object type declares. -/
def FieldDef.toDecl (field : FieldDef) : FieldDecl where
  description := field.description
  name := field.name
  arguments := field.arguments.map (·.toDecl)
  type := field.type.withNameInSdl

/-- What a field of an input type declares. -/
def FieldDef.toInputDecl (field : FieldDef) : InputDecl where
  description := field.description
  name := field.name
  type := field.type.withNameInSdl

/-- What a type declares after its name. -/
def TypeDef.toBody (type : TypeDef) : TypeBody :=
  match type.kind with
  | .scalar => .scalar
  | .object => .object [] (type.fields.map (·.toDecl))
  | .input => .input (type.fields.map (·.toInputDecl))

/-- What a type declares. -/
def TypeDef.toDecl (type : TypeDef) : TypeDecl where
  description := type.description
  name := nameInSdl type.name
  body := type.toBody

namespace Schema

/-- The roots that schema text declares. -/
def toRoots (schema : Schema) : Roots :=
  (.query, schema.query.name) ::
    if schema.hasMutations then [(.mutation, schema.mutation.name)] else []

/-- The directive that schema text declares. -/
def pickDirective : DirectiveDecl where
  name := "pick"
  arguments := [{ name := "fields", type := .list (.named "String" false) true }]
  locations := ["VARIABLE_DEFINITION"]

/-- The document that schema text is. -/
def document (schema : Schema) : Document :=
  .schema [] schema.toRoots ::
    (schema.declaredTypes.map (fun type => .type type.toDecl) ++ [.directive pickDirective])

end Schema

/-! ### What can be read back -/

namespace TypeDef

/-- The type has fields, unless it is a scalar, and these take no arguments if it is an input
type. -/
def hasBody (type : TypeDef) : Bool :=
  match type.kind with
  | .scalar => true
  | .object => !type.fields.isEmpty
  | .input => !type.fields.isEmpty && type.fields.all fun field => field.arguments.isEmpty

/-- The text of a type can be read back. -/
def isReadable (type : TypeDef) : Bool := type.isPlain && type.hasBody

/-- **What can be read back** has plain documentation and, unless it is a scalar, has fields. Those
of input types take no arguments. -/
theorem isReadable_iff {type : TypeDef} :
    type.isReadable = true ↔ isPlainDescription type.description = true ∧
      (type.kind ≠ .scalar → type.fields ≠ [] ∧
        ∀ field ∈ type.fields, isPlainDescription field.description = true) ∧
      (type.kind = .input → ∀ field ∈ type.fields, field.arguments = []) := by
  have hnonempty : (!type.fields.isEmpty) = true ↔ type.fields ≠ [] := by
    rw [Bool.not_eq_true', ← Bool.not_eq_true, List.isEmpty_iff]
  rw [isReadable, isPlain, hasBody, isScalar]
  cases type.kind with
  | scalar => simp
  | object => simp [hnonempty, and_left_comm, and_comm]
  | input => simp [hnonempty, and_assoc, and_left_comm]

end TypeDef

/-! ### Reading tokens -/

namespace Parser

variable {fuel : Nat} {rest : List Token}

section

variable {α : Type} {items : List α} {parts : α → List Token}

/-- A list of items has no more of them than tokens. -/
theorem length_le_length_flatMap (h : ∀ a ∈ items, Starts (parts a)) :
    items.length ≤ (items.flatMap parts).length := by
  induction items with
  | nil => exact Nat.le_refl 0
  | cons a items ih =>
      obtain ⟨hfirst, hitems⟩ := List.forall_mem_cons.mp h
      have hnonempty : 1 ≤ (parts a).length := by
        rcases hfirst with ⟨text, rest, heq⟩ | ⟨text, rest, heq⟩
        · simp [heq]
        · simp [heq]
      rw [List.flatMap_cons, List.length_append, List.length_cons]
      exact Nat.add_comm .. ▸ Nat.add_le_add hnonempty (ih hitems)

/-- An item of a list has no more tokens than the list. -/
theorem length_parts_le {a : α} (h : a ∈ items) :
    (parts a).length ≤ (items.flatMap parts).length := by
  obtain ⟨before, after, rfl⟩ := List.append_of_mem h
  rw [List.flatMap_append, List.flatMap_cons, List.length_append, List.length_append]
  omega

end

/-! ### Fields -/

theorem starts_argument (arg : ArgumentDef) : Starts arg.tokens := Or.inl ⟨_, _, rfl⟩

theorem starts_field (field : FieldDef) : Starts field.tokens := by
  rw [FieldDef.tokens]
  cases field.description with
  | none => exact Or.inl ⟨_, _, rfl⟩
  | some text => exact Or.inr ⟨_, _, rfl⟩

/-- An argument is read back. -/
theorem inputDecl_argument (arg : ArgumentDef) (hfuel : arg.tokens.length ≤ fuel)
    (h : Ends rest) : inputDecl fuel (arg.tokens ++ rest) = some (arg.toDecl, rest) := by
  simp only [ArgumentDef.tokens, List.length_cons] at hfuel
  have htype : Parser.type fuel (arg.type.withNameInSdl.tokens ++ rest) =
      some (arg.type.withNameInSdl, rest) := type_tokens _ (by omega) h
  have hdirectives : directives true fuel rest = some ([], rest) :=
    directives_of_ends h (by omega) true
  simp only [inputDecl, ArgumentDef.tokens, List.cons_append, bind_apply, text?_name, labelled,
    name_cons, expect_self, htype, default?_of_ends h, hdirectives, pure_apply, Option.bind_some]
  rfl

/-- Nothing is read from the end of a list of arguments or fields. -/
theorem inputDecl_punctuator (c : Char) (rest : List Token) :
    inputDecl fuel (.punctuator c :: rest) = none := rfl

/-- Arguments in parentheses are read back. -/
theorem block?_arguments (arguments : List ArgumentDef)
    (hfuel : (argumentsTokens arguments).length ≤ fuel) (rest : List Token) :
    block? fuel '(' ')' (inputDecl fuel) (argumentsTokens arguments ++ .punctuator ':' :: rest) =
      some (arguments.map (·.toDecl), .punctuator ':' :: rest) := by
  cases arguments with
  | nil => exact block?_of_ne (by simp [argumentsTokens])
  | cons first others =>
      have htokens : argumentsTokens (first :: others) = .punctuator '(' ::
          ((first :: others).flatMap ArgumentDef.tokens ++ [.punctuator ')']) := rfl
      rw [htokens, List.length_cons, List.length_append, List.length_singleton] at hfuel
      have hlength : (first :: others).length ≤
          ((first :: others).flatMap ArgumentDef.tokens).length :=
        length_le_length_flatMap fun arg _ => starts_argument arg
      have hread : ∀ arg ∈ first :: others, ∀ rest, Ends rest →
          inputDecl fuel (arg.tokens ++ rest) =
            if (fun _ => true) arg then some (arg.toDecl, rest) else none := by
        intro arg harg rest hrest
        have hpart : arg.tokens.length ≤ ((first :: others).flatMap ArgumentDef.tokens).length :=
          length_parts_le harg
        exact inputDecl_argument arg (by omega) hrest
      rw [htokens, List.cons_append, List.append_assoc, List.singleton_append, block?_cons,
        block_flatMap hread (fun arg _ => starts_argument arg) (by decide) (by omega)
          (inputDecl_punctuator ')')]
      simp

/-- **A field of an object type is read back.** -/
theorem fieldDecl_field (field : FieldDef) (hfuel : field.tokens.length ≤ fuel) (h : Ends rest) :
    fieldDecl fuel (field.tokens ++ rest) = some (field.toDecl, rest) := by
  simp only [FieldDef.tokens, List.length_append, List.length_cons] at hfuel
  have htype : Parser.type fuel (field.type.withNameInSdl.tokens ++ rest) =
      some (field.type.withNameInSdl, rest) := type_tokens _ (by omega) h
  have hdirectives : directives true fuel rest = some ([], rest) :=
    directives_of_ends h (by omega) true
  have harguments : block? fuel '(' ')' (inputDecl fuel) (argumentsTokens field.arguments ++
      .punctuator ':' :: (field.type.withNameInSdl.tokens ++ rest)) =
      some (field.arguments.map (·.toDecl),
        .punctuator ':' :: (field.type.withNameInSdl.tokens ++ rest)) :=
    block?_arguments field.arguments (by omega) _
  simp only [FieldDef.tokens, List.append_assoc, List.cons_append]
  cases hdescription : field.description with
  | none =>
      simp only [descriptionTokens, List.nil_append, fieldDecl, bind_apply, text?_name, name_cons,
        harguments, expect_self, htype, hdirectives, pure_apply, Option.bind_some,
        FieldDef.toDecl, hdescription]
  | some text =>
      simp only [descriptionTokens, List.cons_append, List.nil_append, fieldDecl, bind_apply,
        text?_string, name_cons, harguments, expect_self, htype, hdirectives, pure_apply,
        Option.bind_some, FieldDef.toDecl, hdescription]

/-- **A field of an input type is read back** exactly when it takes no arguments. -/
theorem inputDecl_field (field : FieldDef) (hfuel : field.tokens.length ≤ fuel) (h : Ends rest) :
    inputDecl fuel (field.tokens ++ rest) =
      if field.arguments.isEmpty then some (field.toInputDecl, rest) else none := by
  simp only [FieldDef.tokens, List.length_append, List.length_cons] at hfuel
  have htype : Parser.type fuel (field.type.withNameInSdl.tokens ++ rest) =
      some (field.type.withNameInSdl, rest) := type_tokens _ (by omega) h
  have hdirectives : directives true fuel rest = some ([], rest) :=
    directives_of_ends h (by omega) true
  -- What comes after the documentation: a colon, or arguments in its place.
  have hafter : (labelled (Parser.type fuel)) (.name field.name ::
      (argumentsTokens field.arguments ++ .punctuator ':' ::
        (field.type.withNameInSdl.tokens ++ rest))) =
      if field.arguments.isEmpty then some ((field.name, field.type.withNameInSdl), rest)
      else none := by
    cases field.arguments with
    | nil =>
        simp only [argumentsTokens, List.isEmpty_nil, if_true, List.nil_append, labelled,
          bind_apply, name_cons, expect_self, htype, pure_apply, Option.bind_some]
    | cons arg others =>
        have hopening : (argumentsTokens (arg :: others) ++ .punctuator ':' ::
            (field.type.withNameInSdl.tokens ++ rest)).head? ≠ some (.punctuator ':') := by
          simp [argumentsTokens]
        simp only [labelled, bind_apply, name_cons, expect_of_ne hopening, Option.bind_some,
          Option.bind_none, List.isEmpty_cons, Bool.false_eq_true, if_false]
  simp only [FieldDef.tokens, List.append_assoc, List.cons_append]
  have hread : ∀ description, field.description = description →
      text? (descriptionTokens description ++ .name field.name ::
        (argumentsTokens field.arguments ++ .punctuator ':' ::
          (field.type.withNameInSdl.tokens ++ rest))) =
      some (description, .name field.name :: (argumentsTokens field.arguments ++
        .punctuator ':' :: (field.type.withNameInSdl.tokens ++ rest))) := by
    intro description _
    cases description with
    | none => rfl
    | some text => rfl
  simp only [inputDecl, bind_apply, hread _ rfl, hafter, Option.bind_some]
  cases field.arguments.isEmpty with
  | false => rfl
  | true =>
      simp only [if_true, Option.bind_some, default?_of_ends h, hdirectives, pure_apply]
      rfl

/-! ### Types -/

/-- **The body of a type is read back** as it is declared, if it has one. -/
theorem typeDecl_type (type : TypeDef) (hfuel : type.bodyTokens.length < fuel) (h : Ends rest)
    (description : Option String) :
    typeDecl fuel description type.kind.keyword
        (.name (nameInSdl type.name) :: (type.bodyTokens ++ rest)) =
      if type.hasBody then
        some ({ description, name := nameInSdl type.name, body := type.toBody }, rest)
      else none := by
  have hbrace : ∀ rest : List Token, Ends (.punctuator '\x7b' :: rest) := fun rest =>
    ends_punctuator (by decide) rest
  have hlength : type.fields.length ≤ (type.fields.flatMap FieldDef.tokens).length :=
    length_le_length_flatMap fun field _ => starts_field field
  have hpart : ∀ field ∈ type.fields,
      field.tokens.length ≤ (type.fields.flatMap FieldDef.tokens).length := fun field hfield =>
    length_parts_le hfield
  rw [TypeDef.bodyTokens] at hfuel ⊢
  rw [TypeDef.hasBody, TypeDef.toBody]
  cases hkind : type.kind with
  | scalar =>
      simp only [hkind] at hfuel
      have hdirectives := directives_of_ends h (Nat.lt_of_le_of_lt (Nat.zero_le _) hfuel) true
      simp only [TypeKind.keyword, List.nil_append, typeDecl, bind_apply, name_cons,
        Option.bind_some, hdirectives, pure_apply, if_true]
  | object =>
      simp only [hkind, fieldsTokens, List.length_cons, List.length_append,
        List.length_nil] at hfuel
      have hread : ∀ field ∈ type.fields, ∀ rest, Ends rest →
          fieldDecl fuel (field.tokens ++ rest) =
            if (fun _ => true) field then some (field.toDecl, rest) else none :=
        fun field hfield rest hrest =>
          fieldDecl_field field (Nat.le_trans (hpart field hfield) (by omega)) hrest
      have hfields := @block_flatMap _ _ fuel _ _ _ _ '\x7d' '\x7b' _ hread
        (fun field _ => starts_field field) (by decide) (by omega) (fun _ => rfl) rest
      have himplements : ∀ rest : List Token,
          (Token.punctuator '\x7b' :: rest).head? ≠ some (.name "implements") := by simp
      simp only [TypeKind.keyword, fieldsTokens, List.cons_append, List.append_assoc,
        List.nil_append, typeDecl, interfaces, bind_apply, name_cons, Option.bind_some,
        accept_of_ne (himplements _), Bool.false_eq_true, if_false, pure_apply,
        directives_of_ends (hbrace _) (by omega : 0 < fuel), block?_cons, hfields]
      cases type.fields.isEmpty with
      | false => simp
      | true => simp
  | input =>
      simp only [hkind, fieldsTokens, List.length_cons, List.length_append,
        List.length_nil] at hfuel
      have hread : ∀ field ∈ type.fields, ∀ rest, Ends rest →
          inputDecl fuel (field.tokens ++ rest) =
            if field.arguments.isEmpty then some (field.toInputDecl, rest) else none :=
        fun field hfield rest hrest =>
          inputDecl_field field (Nat.le_trans (hpart field hfield) (by omega)) hrest
      have hfields := @block_flatMap _ _ fuel _ _
        (fun field : FieldDef => field.arguments.isEmpty) _ '\x7d' '\x7b' _ hread
        (fun field _ => starts_field field) (by decide) (by omega) (fun _ => rfl) rest
      simp only [TypeKind.keyword, fieldsTokens, List.cons_append, List.append_assoc,
        List.nil_append, typeDecl, bind_apply, name_cons, Option.bind_some, pure_apply,
        directives_of_ends (hbrace _) (by omega : 0 < fuel), block?_cons, hfields]
      split
      · rfl
      · rfl

theorem starts_type (type : TypeDef) : Starts type.tokens := by
  rw [TypeDef.tokens]
  cases type.description with
  | none => exact Or.inl ⟨_, _, rfl⟩
  | some text => exact Or.inr ⟨_, _, rfl⟩

/-- The keyword of a kind declares types, and nothing else begins with it. -/
theorem schemaDefinition_keyword (kind : TypeKind) (description : Option String)
    (tokens : List Token) :
    schemaDefinition fuel description kind.keyword tokens =
      (typeDecl fuel description kind.keyword tokens).map fun read =>
        (.type read.1, read.2) := by
  have hkeyword : kind.keyword ≠ "schema" ∧ kind.keyword ≠ "directive" ∧
      kind.keyword ∈ typeKeywords := by
    cases kind with
    | object => decide
    | input => decide
    | scalar => decide
  obtain ⟨hschema, hdirective, hmem⟩ := hkeyword
  rw [schemaDefinition, if_neg hschema, if_neg hdirective, if_pos hmem, bind_apply]
  cases typeDecl fuel description kind.keyword tokens with
  | none => rfl
  | some read => rfl

/-- **The tokens of a type are read back as its declaration**, if it has a body. -/
theorem definition_type (type : TypeDef) (hfuel : type.tokens.length ≤ fuel) (h : Ends rest) :
    definition fuel (type.tokens ++ rest) =
      if type.hasBody then some (.type type.toDecl, rest) else none := by
  simp only [TypeDef.tokens, List.length_append, List.length_cons] at hfuel
  have htype := @typeDecl_type fuel rest type (by omega) h
  have hread : ∀ description, (typeDecl fuel description type.kind.keyword
      (.name (nameInSdl type.name) :: (type.bodyTokens ++ rest))).map (fun read =>
        (Definition.type read.1, read.2)) =
      if type.hasBody then
        some (.type { description, name := nameInSdl type.name, body := type.toBody }, rest)
      else none := by
    intro description
    rw [htype]
    split
    · rfl
    · rfl
  have hkeyword : type.kind.keyword ≠ "extend" ∧ type.kind.keyword ≠ "fragment" ∧
      RootKind.ofKeyword? type.kind.keyword = none := by
    cases type.kind with
    | object => decide
    | input => decide
    | scalar => decide
  obtain ⟨hextend, hfragment, hroot⟩ := hkeyword
  simp only [TypeDef.tokens, List.append_assoc, List.cons_append, TypeDef.toDecl]
  cases type.description with
  | none =>
      simp only [descriptionTokens, List.nil_append, definition, bind_apply, peek?_apply,
        List.head?_cons, Option.bind_some, name_cons, if_neg hextend, if_neg hfragment, hroot,
        schemaDefinition_keyword, hread]
  | some text =>
      simp only [descriptionTokens, List.cons_append, List.nil_append, definition, bind_apply,
        peek?_apply, List.head?_cons, Option.bind_some, text?_string, name_cons,
        schemaDefinition_keyword, hread]

/-! ### Documents -/

/-- The declaration of the roots is read back. -/
theorem definition_roots (schema : Schema) (hfuel : schema.rootsTokens.length ≤ fuel)
    (rest : List Token) :
    definition fuel (schema.rootsTokens ++ rest) = some (.schema [] schema.toRoots, rest) := by
  have hlength : 6 ≤ schema.rootsTokens.length := by
    rw [Schema.rootsTokens]
    simp only [List.length_append, List.length_cons, List.length_nil]
    omega
  obtain ⟨fuel, rfl⟩ : ∃ spare, fuel = spare + 6 := ⟨fuel - 6, by omega⟩
  rw [Schema.rootsTokens, Schema.toRoots]
  cases schema.hasMutations with
  | false => rfl
  | true => rfl

/-- The declaration of the directive is read back. -/
theorem definition_pick (hfuel : Schema.pickTokens.length ≤ fuel) :
    definition fuel Schema.pickTokens = some (.directive Schema.pickDirective, []) := by
  obtain ⟨fuel, rfl⟩ : ∃ spare, fuel = spare + 13 := ⟨fuel - 13, by
    have hlength : Schema.pickTokens.length = 13 := rfl
    omega⟩
  rfl

/-- Types are read back up to the end of the document, if all of them have bodies. -/
theorem definitions_types {types : List TypeDef} {count : Nat}
    (hfuel : (types.flatMap TypeDef.tokens ++ Schema.pickTokens).length ≤ fuel)
    (hcount : types.length < count) :
    definitions fuel count (types.flatMap TypeDef.tokens ++ Schema.pickTokens) =
      if types.all (·.hasBody) then
        some (types.map (fun type => .type type.toDecl) ++ [.directive Schema.pickDirective], [])
      else none := by
  induction types generalizing count with
  | nil =>
      obtain ⟨count, rfl⟩ := Nat.exists_eq_succ_of_ne_zero (Nat.ne_of_gt hcount)
      rw [List.flatMap_nil, List.nil_append] at hfuel ⊢
      rw [definitions, bind_apply, definition_pick hfuel]
      rfl
  | cons type types ih =>
      obtain ⟨count, rfl⟩ :=
        Nat.exists_eq_succ_of_ne_zero (Nat.ne_of_gt (Nat.zero_lt_of_lt hcount))
      rw [List.flatMap_cons, List.append_assoc, List.length_append] at hfuel
      -- What comes after the type is another type or the directive.
      have hnext : Starts (types.flatMap TypeDef.tokens ++ Schema.pickTokens) := by
        cases types with
        | nil => exact Or.inl ⟨_, _, rfl⟩
        | cons next types =>
            rw [List.flatMap_cons, List.append_assoc]
            exact (starts_type next).append _
      have hmore : (types.flatMap TypeDef.tokens ++ Schema.pickTokens).head?.isNone = false := by
        rcases hnext with ⟨text, others, heq⟩ | ⟨text, others, heq⟩
        · rw [heq]
          rfl
        · rw [heq]
          rfl
      have hrest := ih (by omega) (Nat.lt_of_succ_lt_succ hcount)
      rw [List.flatMap_cons, List.append_assoc, definitions, bind_apply,
        definition_type type (by omega) hnext.ends, List.all_cons]
      cases type.hasBody with
      | false => rfl
      | true =>
          simp only [if_true, Option.bind_some, bind_apply, peek?_apply, hmore,
            Bool.false_eq_true, if_false, hrest, Bool.true_and]
          split
          · rfl
          · rfl

end Parser

/-- **Schema text is read back** as the document that declares the types of the schema, exactly
when each of them can be read back. -/
theorem Schema.parse?_sdl {schema : Schema} (hquery : isName schema.query.name = true)
    (hmutation : isName schema.mutation.name = true)
    (htypes : ∀ type ∈ schema.declaredTypes, type.GoesBy IsTypeName) :
    Document.parse? schema.sdl =
      if schema.declaredTypes.all (·.isReadable) then some schema.document else none := by
  have hreadable : schema.declaredTypes.all (·.isReadable) =
      (schema.declaredTypes.all (·.isPlain) && schema.declaredTypes.all (·.hasBody)) := by
    rw [Bool.eq_iff_iff, Bool.and_eq_true, List.all_eq_true, List.all_eq_true, List.all_eq_true]
    simp only [TypeDef.isReadable, Bool.and_eq_true]
    exact ⟨fun h => ⟨fun type htype => (h type htype).1, fun type htype => (h type htype).2⟩,
      fun h type htype => ⟨h.1 type htype, h.2 type htype⟩⟩
  rw [Document.parse?, scan?_sdl hquery hmutation htypes, hreadable]
  cases schema.declaredTypes.all (·.isPlain) with
  | false => rfl
  | true =>
      have hlength : schema.declaredTypes.length ≤
          (schema.declaredTypes.flatMap TypeDef.tokens).length :=
        Parser.length_le_length_flatMap fun type _ => Parser.starts_type type
      have hall : schema.tokens.length = schema.rootsTokens.length +
          (schema.declaredTypes.flatMap TypeDef.tokens ++ pickTokens).length :=
        List.length_append
      have hpick : (schema.declaredTypes.flatMap TypeDef.tokens ++ pickTokens).length =
          (schema.declaredTypes.flatMap TypeDef.tokens).length + 13 := List.length_append
      have hroots : Parser.definition (schema.tokens.length + 1) schema.tokens =
          some (.schema [] schema.toRoots,
            schema.declaredTypes.flatMap TypeDef.tokens ++ pickTokens) :=
        Parser.definition_roots schema (by omega) _
      have hrest : Parser.definitions (schema.tokens.length + 1) schema.tokens.length
          (schema.declaredTypes.flatMap TypeDef.tokens ++ pickTokens) =
          if schema.declaredTypes.all (·.hasBody) then
            some (schema.declaredTypes.map (fun type => .type type.toDecl) ++
              [.directive pickDirective], [])
          else none := Parser.definitions_types (by omega) (by omega)
      have hmore :
          (schema.declaredTypes.flatMap TypeDef.tokens ++ pickTokens).head?.isNone = false := by
        rw [← Bool.not_eq_true, Option.isNone_iff_eq_none, List.head?_eq_none_iff]
        exact List.append_ne_nil_of_right_ne_nil _ (by decide)
      simp only [if_true, Option.bind_eq_bind, Option.bind_some, Bool.true_and,
        Parser.definitions, Parser.bind_apply, hroots, Parser.peek?_apply, hmore,
        Bool.false_eq_true, if_false, hrest]
      split
      · rfl
      · rfl

end ClientSdk
