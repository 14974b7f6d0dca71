import ClientSdk.Proofs.Document.Lexing
import ClientSdk.Proofs.Document.Parsing
import ClientSdk.Proofs.Schema.Names
import ClientSdk.Proofs.TypeRef
import ClientSdk.ValidSchema

/-!
# The Tokens of Schema Text

The text of a schema is a sequence of names and punctuation, with blanks between them, and of
documentation texts. Where all names are written as names, the lexer finds exactly these tokens in
it, unless a documentation holds a carriage return.

## Main definitions

* `TypeDef.tokens`, `Schema.tokens`: schema text as tokens.
* `TypeDef.isPlain`: the documentation of a type and of its fields can be read.

## Main results

* `Lexer.reads_field`, `Lexer.reads_type`: fields and types are read as their tokens.
* `Schema.scan?_sdl`: schema text is read as its tokens.
-/

namespace ClientSdk

open Token Lexer

/-! ### Tokens -/

/-- A documentation text as a token. -/
def descriptionTokens : Option String → List Token
  | none => []
  | some text => [.string text]

/-- An argument as tokens. -/
def ArgumentDef.tokens (arg : ArgumentDef) : List Token :=
  .name arg.name :: .punctuator ':' :: arg.type.withNameInSdl.tokens

/-- Arguments in parentheses as tokens. -/
def argumentsTokens (arguments : List ArgumentDef) : List Token :=
  if arguments.isEmpty then []
  else .punctuator '(' :: (arguments.flatMap ArgumentDef.tokens ++ [.punctuator ')'])

/-- A field as tokens. -/
def FieldDef.tokens (field : FieldDef) : List Token :=
  descriptionTokens field.description ++ .name field.name ::
    (argumentsTokens field.arguments ++ .punctuator ':' :: field.type.withNameInSdl.tokens)

/-- Fields between braces as tokens. -/
def fieldsTokens (fields : List FieldDef) : List Token :=
  .punctuator '\x7b' :: (fields.flatMap FieldDef.tokens ++ [.punctuator '\x7d'])

/-- What stands after the name of a type. -/
def TypeDef.bodyTokens (type : TypeDef) : List Token :=
  match type.kind with
  | .scalar => []
  | .object => fieldsTokens type.fields
  | .input => fieldsTokens type.fields

/-- The keyword that declares types of a kind. -/
def TypeKind.keyword : TypeKind → String
  | object => "type"
  | input => "input"
  | scalar => "scalar"

/-- A type as tokens. -/
def TypeDef.tokens (type : TypeDef) : List Token :=
  descriptionTokens type.description ++
    .name type.kind.keyword :: .name (nameInSdl type.name) :: type.bodyTokens

namespace Schema

/-- The declaration of the roots as tokens. -/
def rootsTokens (schema : Schema) : List Token :=
  [.name "schema", .punctuator '\x7b', .name "query", .punctuator ':',
    .name schema.query.name] ++
  (if schema.hasMutations then
    [.name "mutation", .punctuator ':', .name schema.mutation.name] else []) ++
  [.punctuator '\x7d']

/-- The declaration of the directive as tokens. -/
def pickTokens : List Token :=
  [.name "directive", .punctuator '@', .name "pick", .punctuator '(', .name "fields",
    .punctuator ':', .punctuator '[', .name "String", .punctuator '!', .punctuator ']',
    .punctuator ')', .name "on", .name "VARIABLE_DEFINITION"]

/-- Schema text as tokens. -/
def tokens (schema : Schema) : List Token :=
  schema.rootsTokens ++ (schema.declaredTypes.flatMap TypeDef.tokens ++ pickTokens)

end Schema

/-! ### What can be read -/

/-- The documentation can be read. -/
def isPlainDescription (description : Option String) : Bool := description.all isPlainText

namespace TypeDef

/-- The documentation of a type and of its fields can be read. -/
def isPlain (type : TypeDef) : Bool :=
  isPlainDescription type.description &&
    (type.isScalar || type.fields.all fun field => isPlainDescription field.description)

end TypeDef

/-! ### Reading characters -/

namespace Lexer

variable {cs : List Char} {readable : Bool} {tokens : List Token}

/-- What is read up to the end of a token is read so before anything. -/
theorem reads_of_run (h : run .between cs = some (.between, tokens)) :
    Reads cs true tokens := by
  intro rest
  rw [run_append, h, if_pos rfl]
  simp only [Option.bind_eq_bind, Option.bind_some, Option.pure_def]
  cases run .between rest with
  | none => rfl
  | some last => rfl

/-- A character that begins no token stands before what is read. -/
theorem Reads.ignored {c : Char} (hc : isIgnored c = true) (h : Reads cs readable tokens) :
    Reads (c :: cs) readable tokens := by
  have happend := (reads_ignored hc).append h
  rw [Bool.true_and] at happend
  exact happend

/-- A punctuation character stands before what is read. -/
theorem Reads.punctuator {c : Char} (hc : c ∈ punctuators) (h : Reads cs readable tokens) :
    Reads (c :: cs) readable (.punctuator c :: tokens) := by
  have happend := (reads_punctuator hc).append h
  rw [Bool.true_and] at happend
  exact happend

/-- A text of complete tokens stands before what is read. -/
theorem Reads.text {text : String} {own : List Token}
    (htext : run .between text.toList = some (.between, own)) (h : Reads cs readable tokens) :
    Reads (text.toList ++ cs) readable (own ++ tokens) := by
  have happend := (reads_of_run htext).append h
  rw [Bool.true_and] at happend
  exact happend

/-- A reference to a type is read up to a character that cannot go on with a name. -/
theorem reads_typeRef {type : TypeRef} (hname : isName type.leafName = true) {c : Char}
    (hend : isNameContinue c = false) (h : Reads (c :: cs) readable tokens) :
    Reads (type.sdl.toList ++ c :: cs) readable (type.tokens ++ tokens) := by
  have hmark : ∀ (nullable : Bool), ∃ c' cs', isNameContinue c' = false ∧
      (if nullable then "" else "!").toList ++ c :: cs = c' :: cs' ∧
      Reads (c' :: cs') readable (TypeRef.markTokens nullable ++ tokens) := by
    intro nullable
    cases nullable with
    | true => exact ⟨c, cs, hend, rfl, h⟩
    | false => exact ⟨'!', c :: cs, rfl, rfl, h.punctuator (by decide)⟩
  induction type generalizing c cs tokens with
  | named name nullable =>
      obtain ⟨c', cs', hend', heq, hread⟩ := hmark nullable
      rw [TypeRef.sdl, String.toList_append, List.append_assoc, heq]
      exact Reads.name hname hend' hread
  | list element nullable ih =>
      obtain ⟨c', cs', hend', heq, hread⟩ := hmark nullable
      have hclosing : Reads (']' :: c' :: cs') readable
          (.punctuator ']' :: (TypeRef.markTokens nullable ++ tokens)) :=
        hread.punctuator (by decide)
      have helement := ih hname (by decide) hclosing (fun nullable' => by
        cases nullable' with
        | true => exact ⟨']', c' :: cs', by decide, rfl, hclosing⟩
        | false =>
            exact ⟨'!', ']' :: c' :: cs', by decide, rfl, hclosing.punctuator (by decide)⟩)
      have hchars : (TypeRef.list element nullable).sdl.toList ++ c :: cs =
          '[' :: (element.sdl.toList ++ ']' :: c' :: cs') := by
        rw [TypeRef.sdl, String.toList_append, List.append_assoc, heq, String.toList_append,
          String.toList_append, List.append_assoc, List.append_assoc]
        rfl
      rw [hchars, TypeRef.tokens, List.cons_append, List.append_assoc, List.cons_append]
      exact helement.punctuator (by decide)

/-- The leaf of a reference in schema text has the name that it has there. -/
theorem leafName_withNameInSdl (type : TypeRef) :
    type.withNameInSdl.leafName = nameInSdl type.leafName :=
  TypeRef.leafName_withLeafName type _

/-- A documentation text is read as a token. -/
theorem reads_descriptionSdl (indent : String)
    (hindent : run .between indent.toList = some (.between, [])) (description : Option String) :
    Reads (descriptionSdl indent description).toList (isPlainDescription description)
      (descriptionTokens description) := by
  cases description with
  | none => exact reads_nil
  | some text =>
      have hchars : (descriptionSdl indent (some text)).toList =
          indent.toList ++ ('"' :: text.toList.flatMap sdlChar ++ ['"', '\n']) := by
        simp [descriptionSdl, String.toList_append]
      rw [hchars]
      exact (reads_quoted text).text hindent

/-- An argument is read up to a character that cannot go on with a name. -/
theorem reads_argument {arg : ArgumentDef} (hname : isName arg.name = true)
    (htype : IsTypeName arg.type.leafName) {c : Char} (hend : isNameContinue c = false)
    (h : Reads (c :: cs) readable tokens) :
    Reads (arg.sdl.toList ++ c :: cs) readable (arg.tokens ++ tokens) := by
  have hleaf : isName arg.type.withNameInSdl.leafName = true := by
    rw [leafName_withNameInSdl]
    exact htype.isName_nameInSdl
  have htype := (reads_typeRef hleaf hend h).ignored (c := ' ') (by decide)
  have hchars : arg.sdl.toList ++ c :: cs =
      arg.name.toList ++ ':' :: ' ' :: (arg.type.withNameInSdl.sdl.toList ++ c :: cs) := by
    simp [ArgumentDef.sdl, String.toList_append]
  rw [hchars]
  exact Reads.name hname (by decide) (htype.punctuator (by decide))

/-- Arguments in parentheses are read before anything that comes after them. -/
theorem reads_arguments {arguments : List ArgumentDef}
    (harguments : ∀ arg ∈ arguments, isName arg.name = true ∧ IsTypeName arg.type.leafName)
    (h : Reads cs readable tokens) :
    Reads ((argumentsSdl arguments).toList ++ cs) readable
      (argumentsTokens arguments ++ tokens) := by
  have hclosing : Reads (')' :: cs) readable (.punctuator ')' :: tokens) :=
    h.punctuator (by decide)
  -- Arguments are read one by one, with a comma between them.
  have hlist : ∀ arguments : List ArgumentDef, arguments ≠ [] →
      (∀ arg ∈ arguments, isName arg.name = true ∧ IsTypeName arg.type.leafName) →
      Reads ((", ".intercalate (arguments.map (·.sdl))).toList ++ ')' :: cs) readable
        (arguments.flatMap ArgumentDef.tokens ++ .punctuator ')' :: tokens) := by
    intro arguments
    induction arguments with
    | nil => exact fun hne _ => absurd rfl hne
    | cons arg others ih =>
        intro _ hnamed
        obtain ⟨harg, hothers⟩ := List.forall_mem_cons.mp hnamed
        cases others with
        | nil =>
            have hread := reads_argument harg.1 harg.2 (by decide) hclosing
            simpa [String.toList_intercalate] using hread
        | cons next others =>
            have hrest := ((ih (by simp) hothers).ignored (c := ' ') (by decide)).ignored
              (c := ',') (by decide)
            have hread := reads_argument harg.1 harg.2 (by decide) hrest
            have hchars : (", ".intercalate ((arg :: next :: others).map (·.sdl))).toList ++
                ')' :: cs = arg.sdl.toList ++ ',' :: ' ' ::
                  ((", ".intercalate ((next :: others).map (·.sdl))).toList ++ ')' :: cs) := by
              simp [String.toList_intercalate]
            rw [hchars, List.flatMap_cons, List.append_assoc]
            exact hread
  rw [argumentsSdl, argumentsTokens]
  cases arguments with
  | nil => exact h
  | cons arg others =>
      have hread := (hlist (arg :: others) (by simp) harguments).punctuator (c := '(') (by decide)
      simpa [String.toList_append] using hread

/-- **A field is read as its tokens**, unless its documentation cannot be read. -/
theorem reads_field {field : FieldDef} (hfield : field.GoesBy IsTypeName) :
    Reads field.sdl.toList (isPlainDescription field.description) field.tokens := by
  have hleaf : isName field.type.withNameInSdl.leafName = true := by
    rw [leafName_withNameInSdl]
    exact hfield.type.isName_nameInSdl
  have hend : Reads ['\n'] true [] := reads_ignored (by decide)
  have htype := (reads_typeRef hleaf (by decide) hend).ignored (c := ' ') (by decide)
  have hcolon := htype.punctuator (c := ':') (by decide)
  have harguments := reads_arguments hfield.arguments hcolon
  rw [List.append_nil] at harguments
  have hdescription := reads_descriptionSdl "  " rfl field.description
  have hname : Reads (field.name.toList ++ ((argumentsSdl field.arguments).toList ++
      ':' :: ' ' :: (field.type.withNameInSdl.sdl.toList ++ ['\n']))) true
      (.name field.name :: (argumentsTokens field.arguments ++
        .punctuator ':' :: field.type.withNameInSdl.tokens)) := by
    cases hargs : field.arguments with
    | nil =>
        rw [hargs] at harguments
        exact Reads.name hfield.name (by decide) harguments
    | cons arg others =>
        rw [hargs] at harguments
        have hchars : (argumentsSdl (arg :: others)).toList = '(' ::
            ((", ".intercalate ((arg :: others).map (·.sdl))).toList ++ [')']) := by
          simp [argumentsSdl, String.toList_append]
        rw [hchars] at harguments ⊢
        exact Reads.name hfield.name (by decide) harguments
  have hread := hdescription.append ((hname.ignored (c := ' ') (by decide)).ignored
    (c := ' ') (by decide))
  rw [Bool.and_true] at hread
  have hchars : field.sdl.toList = (descriptionSdl "  " field.description).toList ++
      ' ' :: ' ' :: (field.name.toList ++ ((argumentsSdl field.arguments).toList ++
        ':' :: ' ' :: (field.type.withNameInSdl.sdl.toList ++ ['\n']))) := by
    simp [FieldDef.sdl, String.toList_append]
  rw [hchars]
  exact hread

/-- Fields between braces are read as their tokens. -/
theorem reads_fields {fields : List FieldDef}
    (hfields : ∀ field ∈ fields, field.GoesBy IsTypeName) :
    Reads (fieldsSdl fields).toList
      (fields.all fun field => isPlainDescription field.description) (fieldsTokens fields) := by
  have hmiddle : Reads (fields.flatMap fun field => field.sdl.toList)
      (fields.all fun field => isPlainDescription field.description)
      (fields.flatMap FieldDef.tokens) :=
    reads_flatMap fun field hfield => reads_field (hfields field hfield)
  have hclosing : Reads ['\x7d', '\n'] true [.punctuator '\x7d'] := reads_of_run rfl
  have hread := ((hmiddle.append hclosing).ignored (c := '\n') (by decide)).punctuator
    (c := '\x7b') (by decide)
  rw [Bool.and_true] at hread
  have hchars : (fieldsSdl fields).toList = '\x7b' :: '\n' ::
      ((fields.flatMap fun field => field.sdl.toList) ++ ['\x7d', '\n']) := by
    simp [fieldsSdl, String.toList_append, String.toList_join, List.flatMap_map]
  rw [hchars]
  exact hread

/-- **A type is read as its tokens**, unless a documentation cannot be read. -/
theorem reads_type {type : TypeDef} (htype : type.GoesBy IsTypeName) :
    Reads type.sdl.toList type.isPlain type.tokens := by
  have hname := htype.name.isName_nameInSdl
  have hdescription := reads_descriptionSdl "" rfl type.description
  -- The keyword, the name and what comes after them.
  have hbody : ∀ (keyword : String) {body : List Char} {plain : Bool} {tokens : List Token}
      {c : Char}, run .between keyword.toList = some (.between, [.name type.kind.keyword]) →
      isNameContinue c = false → Reads (c :: body) plain tokens →
      Reads ((descriptionSdl "" type.description).toList ++
          (keyword.toList ++ ((nameInSdl type.name).toList ++ c :: body)))
        (isPlainDescription type.description && plain)
        (descriptionTokens type.description ++
          .name type.kind.keyword :: .name (nameInSdl type.name) :: tokens) := by
    intro keyword body plain tokens c hkeyword hend hread
    exact hdescription.append ((Reads.name hname hend hread).text hkeyword)
  have hfields := (reads_fields htype.fields).ignored (c := ' ') (by decide)
  rw [TypeDef.tokens, TypeDef.bodyTokens, TypeDef.isPlain, TypeDef.isScalar, TypeDef.sdl]
  cases hkind : type.kind with
  | scalar =>
      have hread := hbody "scalar " (by rw [hkind]; rfl) (by decide)
        (reads_ignored (c := '\n') (by decide))
      rw [hkind] at hread
      simpa [String.toList_append] using hread
  | object =>
      have hread := hbody "type " (by rw [hkind]; rfl) (by decide) hfields
      rw [hkind] at hread
      rw [beq_false_of_ne (by decide : TypeKind.object ≠ .scalar), Bool.false_or]
      simpa [String.toList_append] using hread
  | input =>
      have hread := hbody "input " (by rw [hkind]; rfl) (by decide) hfields
      rw [hkind] at hread
      rw [beq_false_of_ne (by decide : TypeKind.input ≠ .scalar), Bool.false_or]
      simpa [String.toList_append] using hread

end Lexer

/-! ### Whole schemas -/

namespace Schema

/-- The declaration of the roots is read as its tokens. -/
theorem reads_rootsSdl {schema : Schema} (hquery : isName schema.query.name = true)
    (hmutation : isName schema.mutation.name = true) :
    Reads schema.rootsSdl.toList true schema.rootsTokens := by
  have hopening : run .between "schema \x7b\n  query: ".toList = some (.between,
      [.name "schema", .punctuator '\x7b', .name "query", .punctuator ':']) := by decide
  have hlabel : run .between "  mutation: ".toList =
      some (.between, [.name "mutation", .punctuator ':']) := by decide
  have hclosing : Reads ['\n', '\x7d', '\n'] true [.punctuator '\x7d'] :=
    reads_of_run (by decide)
  delta rootsSdl
  rw [rootsTokens]
  cases schema.hasMutations with
  | false =>
      have hread := (Reads.name hquery (by decide) hclosing).text hopening
      simpa [String.toList_append] using hread
  | true =>
      have hmutations := (Reads.name hmutation (by decide) hclosing).text hlabel
      have hread := (Reads.name hquery (by decide)
        (hmutations.ignored (c := '\n') (by decide))).text hopening
      simpa [String.toList_append] using hread

/-- **Schema text is read as its tokens**, unless a documentation cannot be read. -/
theorem scan?_sdl {schema : Schema} (hquery : isName schema.query.name = true)
    (hmutation : isName schema.mutation.name = true)
    (htypes : ∀ type ∈ schema.declaredTypes, type.GoesBy IsTypeName) :
    scan? schema.sdl =
      if schema.declaredTypes.all (·.isPlain) then some schema.tokens else none := by
  have hroots := reads_rootsSdl hquery hmutation
  have hmiddle : Reads (schema.declaredTypes.flatMap fun type => '\n' :: type.sdl.toList)
      (schema.declaredTypes.all (·.isPlain)) (schema.declaredTypes.flatMap TypeDef.tokens) :=
    reads_flatMap fun type htype => (reads_type (htypes type htype)).ignored (by decide)
  have hpick : Reads ("\n" ++ pickDeclaration ++ "\n").toList true pickTokens :=
    reads_of_run (by decide)
  have hread := hroots.append (hmiddle.append hpick)
  have hchars : schema.sdl.toList = schema.rootsSdl.toList ++
      ((schema.declaredTypes.flatMap fun type => '\n' :: type.sdl.toList) ++
        ("\n" ++ pickDeclaration ++ "\n").toList) := by
    simp [sdl, String.toList_append, String.toList_join, List.flatMap_map]
  rw [← hchars, Bool.true_and, Bool.and_true] at hread
  exact scan?_of_reads hread

end Schema

end ClientSdk
