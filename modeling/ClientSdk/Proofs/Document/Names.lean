import ClientSdk.Document.Parser
import ClientSdk.Proofs.Document.Lexing

/-!
# Names in Documents

Whatever a document declares goes by names that are written as names, for the grammar takes every
name from a token of its own. This holds of each part of the grammar, from single tokens to whole
documents, because the tokens that are left are named as the tokens before were.

## Main definitions

* `Parser.Keeps`: from named tokens, a reader reads what has a property, and leaves named tokens.
* `TypeDecl.IsNamed`, `Definition.IsNamed`: everything that is declared goes by a name.
* `OperationDecl.IsNamed`: an operation, its variables and its entries go by names.

## Main results

* `Parser.Keeps.bind`: readers in sequence.
* `Parser.keeps_definition`: a definition goes by names.
* `Document.isNamed_of_parse?`: everything in a document goes by names.
-/

namespace ClientSdk

open Lexer Token

/-! ### Named declarations -/

/-- An argument, or a field of an input type, and its type go by names. -/
structure InputDecl.IsNamed (declaration : InputDecl) : Prop where
  /-- Its own name. -/
  name : isName declaration.name = true
  /-- The name at the bottom of its type. -/
  type : isName declaration.type.leafName = true

/-- A field, its type and its arguments go by names. -/
structure FieldDecl.IsNamed (declaration : FieldDecl) : Prop where
  /-- Its own name. -/
  name : isName declaration.name = true
  /-- The name at the bottom of its type. -/
  type : isName declaration.type.leafName = true
  /-- Its arguments. -/
  arguments : ∀ arg ∈ declaration.arguments, arg.IsNamed

/-- The fields that are declared go by names. -/
def TypeBody.IsNamed : TypeBody → Prop
  | object _ fields => ∀ field ∈ fields, field.IsNamed
  | interface _ fields => ∀ field ∈ fields, field.IsNamed
  | input fields => ∀ field ∈ fields, field.IsNamed
  | _ => True

/-- A type and its fields go by names. -/
structure TypeDecl.IsNamed (declaration : TypeDecl) : Prop where
  /-- Its own name. -/
  name : isName declaration.name = true
  /-- Its fields. -/
  body : declaration.body.IsNamed

/-- The types that a definition declares, adds to or makes roots go by names. -/
def Definition.IsNamed : Definition → Prop
  | schema _ roots => ∀ root ∈ roots, isName root.2 = true
  | schemaExtension _ roots => ∀ root ∈ roots, isName root.2 = true
  | type declaration => declaration.IsNamed
  | typeExtension declaration => declaration.IsNamed
  | _ => True

/-! ### Named operations -/

/-- What an entry selects goes by a name, and so does the alias, if it has one. -/
def SelectionDecl.IsNamed : SelectionDecl → Prop
  | field alias? label _ _ _ => isName label = true ∧ ∀ key ∈ alias?, isName key = true
  | _ => True

/-- An operation, its variables and its entries go by names. -/
structure OperationDecl.IsNamed (declaration : OperationDecl) : Prop where
  /-- Its own name, if it has one. -/
  name : ∀ name ∈ declaration.name, isName name = true
  /-- The names of its variables. -/
  vars : ∀ var ∈ declaration.vars, isName var.name = true
  /-- The names of what it selects. -/
  selections : ∀ selection ∈ declaration.selections, selection.IsNamed

/-- If the definition is an operation, it goes by names. -/
def Definition.OperationIsNamed (definition : Definition) : Prop :=
  ∀ declaration, definition = .operation declaration → declaration.IsNamed

namespace Parser

variable {α β : Type} {P : α → Prop} {Q : β → Prop}

/-- From tokens whose names are written as names, the reader reads what satisfies `P`, and the
names among the tokens that are left are written as names too. -/
def Keeps (P : α → Prop) (reader : Parser α) : Prop :=
  ∀ tokens a rest, AreNamed tokens → reader tokens = some (a, rest) → P a ∧ AreNamed rest

/-! ### Readers in sequence -/

theorem Keeps.mono {P' : α → Prop} {reader : Parser α} (h : Keeps P reader)
    (hweaker : ∀ a, P a → P' a) : Keeps P' reader := fun tokens a rest hnamed hread =>
  (h tokens a rest hnamed hread).imp_left (hweaker a)

theorem Keeps.pure {a : α} (ha : P a) : Keeps P (pure a : Parser α) := by
  intro tokens a' rest hnamed hread
  obtain ⟨rfl, rfl⟩ := Prod.mk.inj (Option.some.inj hread)
  exact ⟨ha, hnamed⟩

theorem keeps_failure : Keeps P (failure : Parser α) := fun _ _ _ _ hread => nomatch hread

/-- **Readers in sequence**: the second one may use what the first one has read. -/
theorem Keeps.bind {reader : Parser α} {next : α → Parser β} (h : Keeps P reader)
    (hnext : ∀ a, P a → Keeps Q (next a)) : Keeps Q (reader >>= next) := by
  intro tokens b rest hnamed hread
  obtain ⟨⟨a, middle⟩, hfirst, hsecond⟩ := Option.bind_eq_some_iff.mp hread
  obtain ⟨ha, hmiddle⟩ := h tokens a middle hnamed hfirst
  exact hnext a ha middle b rest hmiddle hsecond

theorem Keeps.map {reader : Parser α} {f : α → β} (h : Keeps P reader)
    (hf : ∀ a, P a → Q (f a)) : Keeps Q (f <$> reader) :=
  h.bind fun a ha => .pure (hf a ha)

theorem Keeps.ite {c : Prop} [Decidable c] {first second : Parser α} (h : c → Keeps P first)
    (h' : ¬c → Keeps P second) : Keeps P (if c then first else second) := by
  split
  · exact h ‹_›
  · exact h' ‹_›

/-! ### Single tokens -/

theorem keeps_peek? : Keeps (fun _ => True) peek? := by
  intro tokens a rest hnamed hread
  obtain ⟨-, rfl⟩ := Prod.mk.inj (Option.some.inj hread)
  exact ⟨trivial, hnamed⟩

theorem keeps_next :
    Keeps (fun token => ∀ name, token = .name name → isName name = true) next := by
  intro tokens a rest hnamed hread
  cases tokens with
  | nil => cases hread
  | cons token tokens =>
      obtain ⟨rfl, rfl⟩ := Prod.mk.inj (Option.some.inj hread)
      exact hnamed.of_cons

theorem keeps_accept (token : Token) : Keeps (fun _ => True) (accept token) := by
  intro tokens a rest hnamed hread
  refine ⟨trivial, ?_⟩
  cases tokens with
  | nil =>
      obtain ⟨-, rfl⟩ := Prod.mk.inj (Option.some.inj hread)
      exact hnamed
  | cons first tokens =>
      rw [accept] at hread
      split at hread
      · obtain ⟨-, rfl⟩ := Prod.mk.inj (Option.some.inj hread)
        exact (hnamed.of_cons).2
      · obtain ⟨-, rfl⟩ := Prod.mk.inj (Option.some.inj hread)
        exact hnamed

theorem keeps_expect (token : Token) : Keeps (fun _ => True) (expect token) :=
  (keeps_accept token).bind fun _ _ => .ite (fun _ => .pure trivial) fun _ => keeps_failure

/-- **A name is read from a token of its own.** -/
theorem keeps_name : Keeps (fun name => isName name = true) name := by
  refine keeps_next.bind fun token htoken => ?_
  split
  · exact .pure (htoken _ rfl)
  · exact keeps_failure

theorem keeps_text? : Keeps (fun _ => True) text? := by
  intro tokens a rest hnamed hread
  refine ⟨trivial, ?_⟩
  rw [text?.eq_def] at hread
  split at hread
  · obtain ⟨-, rfl⟩ := Prod.mk.inj (Option.some.inj hread)
    exact (hnamed.of_cons).2
  · obtain ⟨-, rfl⟩ := Prod.mk.inj (Option.some.inj hread)
    exact hnamed

/-! ### Lists -/

theorem keeps_itemsTo {closing : Token} {item : Parser α} (h : Keeps P item) (fuel : Nat) :
    Keeps (fun items => ∀ a ∈ items, P a) (itemsTo closing item fuel) := by
  induction fuel with
  | zero => exact keeps_failure
  | succ fuel ih =>
      refine (keeps_accept closing).bind fun closed _ => .ite
        (fun _ => .pure fun _ hmem => absurd hmem List.not_mem_nil) fun _ => ?_
      exact h.bind fun first hfirst => ih.bind fun others hothers =>
        .pure (List.forall_mem_cons.mpr ⟨hfirst, hothers⟩)

theorem keeps_block {opening closing : Char} {item : Parser α} (h : Keeps P item) (fuel : Nat) :
    Keeps (fun items => ∀ a ∈ items, P a) (block fuel opening closing item) :=
  (keeps_expect _).bind fun _ _ => h.bind fun _ hfirst =>
    (keeps_itemsTo h fuel).bind fun _ hothers =>
      .pure (List.forall_mem_cons.mpr ⟨hfirst, hothers⟩)

theorem keeps_block? {opening closing : Char} {item : Parser α} (h : Keeps P item)
    (fuel : Nat) : Keeps (fun items => ∀ a ∈ items, P a) (block? fuel opening closing item) :=
  keeps_peek?.bind fun _ _ => .ite (fun _ => keeps_block h fuel)
    fun _ => .pure fun _ hmem => absurd hmem List.not_mem_nil

theorem keeps_marked {mark : Token} {item : Parser α} (h : Keeps P item) (fuel : Nat) :
    Keeps (fun items => ∀ a ∈ items, P a) (marked mark item fuel) := by
  induction fuel with
  | zero => exact keeps_failure
  | succ fuel ih =>
      refine (keeps_accept mark).bind fun found _ => .ite (fun _ => ?_)
        fun _ => .pure fun _ hmem => absurd hmem List.not_mem_nil
      exact h.bind fun first hfirst => ih.bind fun others hothers =>
        .pure (List.forall_mem_cons.mpr ⟨hfirst, hothers⟩)

theorem keeps_separated {mark : Token} {item : Parser α} (h : Keeps P item) (fuel : Nat) :
    Keeps (fun items => ∀ a ∈ items, P a) (separated fuel mark item) :=
  (keeps_accept mark).bind fun _ _ => h.bind fun _ hfirst =>
    (keeps_marked h fuel).bind fun _ hothers =>
      .pure (List.forall_mem_cons.mpr ⟨hfirst, hothers⟩)

/-! ### Types and values -/

theorem keeps_type (fuel : Nat) : Keeps (fun type => isName type.leafName = true) (type fuel) := by
  induction fuel with
  | zero => exact keeps_failure
  | succ fuel ih =>
      refine (keeps_accept _).bind fun isList _ => .ite (fun _ => ?_) fun _ => ?_
      · exact ih.bind fun element helement => (keeps_expect _).bind fun _ _ =>
          (keeps_accept _).bind fun _ _ => .pure helement
      · exact keeps_name.bind fun name hname => (keeps_accept _).bind fun _ _ => .pure hname

theorem keeps_labelled {item : Parser α} (h : Keeps P item) :
    Keeps (fun labelled => isName labelled.1 = true ∧ P labelled.2) (labelled item) :=
  keeps_name.bind fun _ hname => (keeps_expect _).bind fun _ _ =>
    h.bind fun _ hitem => .pure ⟨hname, hitem⟩

/-- Nothing that is declared depends on the names in values. -/
theorem keeps_value (constant : Bool) (fuel : Nat) :
    Keeps (fun _ => True) (value constant fuel) := by
  induction fuel with
  | zero => exact keeps_failure
  | succ fuel ih =>
      refine keeps_next.bind fun token _ => ?_
      split
      case h_5 =>
        exact .ite (fun _ => keeps_failure) fun _ => keeps_name.bind fun _ _ => .pure trivial
      case h_6 => exact (keeps_itemsTo ih fuel).bind fun _ _ => .pure trivial
      case h_7 => exact (keeps_itemsTo (keeps_labelled ih) fuel).bind fun _ _ => .pure trivial
      case h_8 => exact keeps_failure
      all_goals exact .pure trivial

theorem keeps_arguments (constant : Bool) (fuel : Nat) :
    Keeps (fun _ => True) (arguments constant fuel) :=
  (keeps_block? (keeps_labelled (keeps_value constant fuel)) fuel).mono fun _ _ => trivial

theorem keeps_directives (constant : Bool) (fuel : Nat) :
    Keeps (fun _ => True) (directives constant fuel) := by
  have hdirective : Keeps (fun _ => True) (do
      let name ← name
      return ({ name, arguments := ← arguments constant fuel } : Directive)) :=
    keeps_name.bind fun _ _ => (keeps_arguments constant fuel).bind fun _ _ => .pure trivial
  exact (keeps_marked hdirective fuel).mono fun _ _ => trivial

theorem keeps_default? (fuel : Nat) : Keeps (fun _ => True) (default? fuel) :=
  (keeps_accept _).bind fun _ _ => .ite
    (fun _ => (keeps_value true fuel).bind fun _ _ => .pure trivial) fun _ => .pure trivial

/-! ### Schema documents -/

theorem keeps_inputDecl (fuel : Nat) : Keeps InputDecl.IsNamed (inputDecl fuel) :=
  keeps_text?.bind fun _ _ => (keeps_labelled (keeps_type fuel)).bind fun _ hnamed =>
    (keeps_default? fuel).bind fun _ _ => (keeps_directives true fuel).bind fun _ _ =>
      .pure ⟨hnamed.1, hnamed.2⟩

theorem keeps_fieldDecl (fuel : Nat) : Keeps FieldDecl.IsNamed (fieldDecl fuel) :=
  keeps_text?.bind fun _ _ => keeps_name.bind fun _ hname =>
    (keeps_block? (keeps_inputDecl fuel) fuel).bind fun _ harguments =>
      (keeps_expect _).bind fun _ _ => (keeps_type fuel).bind fun _ htype =>
        (keeps_directives true fuel).bind fun _ _ => .pure ⟨hname, htype, harguments⟩

theorem keeps_enumValue (fuel : Nat) : Keeps (fun _ => True) (enumValue fuel) :=
  keeps_text?.bind fun _ _ => keeps_name.bind fun _ _ =>
    (keeps_directives true fuel).bind fun _ _ =>
      .ite (fun _ => keeps_failure) fun _ => .pure trivial

theorem keeps_interfaces (fuel : Nat) : Keeps (fun _ => True) (interfaces fuel) :=
  (keeps_accept _).bind fun _ _ => .ite
    (fun _ => (keeps_separated keeps_name fuel).mono fun _ _ => trivial) fun _ => .pure trivial

theorem keeps_members (fuel : Nat) : Keeps (fun _ => True) (members fuel) :=
  (keeps_accept _).bind fun _ _ => .ite
    (fun _ => (keeps_separated keeps_name fuel).mono fun _ _ => trivial) fun _ => .pure trivial

theorem keeps_typeDecl (fuel : Nat) (description : Option String) (keyword : String) :
    Keeps TypeDecl.IsNamed (typeDecl fuel description keyword) := by
  refine keeps_name.bind fun name hname => ?_
  split
  · exact (keeps_directives true fuel).bind fun _ _ => .pure ⟨hname, trivial⟩
  · exact (keeps_interfaces fuel).bind fun _ _ => (keeps_directives true fuel).bind fun _ _ =>
      (keeps_block? (keeps_fieldDecl fuel) fuel).bind fun _ hfields => .pure ⟨hname, hfields⟩
  · exact (keeps_interfaces fuel).bind fun _ _ => (keeps_directives true fuel).bind fun _ _ =>
      (keeps_block? (keeps_fieldDecl fuel) fuel).bind fun _ hfields => .pure ⟨hname, hfields⟩
  · exact (keeps_directives true fuel).bind fun _ _ =>
      (keeps_members fuel).bind fun _ _ => .pure ⟨hname, trivial⟩
  · exact (keeps_directives true fuel).bind fun _ _ =>
      (keeps_block? (keeps_enumValue fuel) fuel).bind fun _ _ => .pure ⟨hname, trivial⟩
  · exact (keeps_directives true fuel).bind fun _ _ =>
      (keeps_block? (keeps_inputDecl fuel) fuel).bind fun _ hfields => .pure ⟨hname, hfields⟩
  · exact keeps_failure

theorem keeps_root : Keeps (fun root => isName root.2 = true) root := by
  have hkind : Keeps (fun _ => True) rootKind := by
    refine keeps_name.bind fun keyword _ => ?_
    split
    · exact .pure trivial
    · exact keeps_failure
  exact hkind.bind fun _ _ => (keeps_expect _).bind fun _ _ =>
    keeps_name.bind fun _ hname => .pure hname

theorem keeps_directiveDecl (fuel : Nat) : Keeps (fun _ => True) (directiveDecl fuel) := by
  have hlocation : Keeps (fun _ => True) directiveLocation :=
    keeps_name.bind fun _ _ => .ite (fun _ => .pure trivial) fun _ => keeps_failure
  exact (keeps_expect _).bind fun _ _ => keeps_name.bind fun _ _ =>
    (keeps_block? (keeps_inputDecl fuel) fuel).bind fun _ _ =>
      (keeps_accept _).bind fun _ _ => (keeps_expect _).bind fun _ _ =>
        (keeps_separated hlocation fuel).bind fun _ _ => .pure trivial

/-! ### Operations -/

theorem keeps_fragmentName : Keeps (fun _ => True) fragmentName :=
  keeps_name.bind fun _ _ => .ite (fun _ => keeps_failure) fun _ => .pure trivial

/-- **An entry goes by names.** Induction on the depth of the entries below it. -/
theorem keeps_selection (fuel : Nat) : Keeps SelectionDecl.IsNamed (selection fuel) := by
  induction fuel with
  | zero => exact keeps_failure
  | succ fuel ih =>
      refine (keeps_accept _).bind fun isFragment _ => .ite (fun _ => ?_) fun _ => ?_
      · refine (keeps_accept _).bind fun hasCondition _ => .ite (fun _ => ?_) fun _ => ?_
        · exact keeps_name.bind fun _ _ => (keeps_directives false fuel).bind fun _ _ =>
            (keeps_block ih fuel).bind fun _ _ => .pure trivial
        · refine keeps_peek?.bind fun next? _ => ?_
          split
          · exact keeps_fragmentName.bind fun _ _ =>
              (keeps_directives false fuel).bind fun _ _ => .pure trivial
          · exact (keeps_directives false fuel).bind fun _ _ =>
              (keeps_block ih fuel).bind fun _ _ => .pure trivial
      · have hrest : ∀ {field : List (String × Value) → List Directive → List SelectionDecl →
              SelectionDecl},
            (∀ args directives selections, (field args directives selections).IsNamed) →
            Keeps SelectionDecl.IsNamed (do
              let arguments ← arguments false fuel
              let directives ← directives false fuel
              let selections ← block? fuel '{' '}' (selection fuel)
              return field arguments directives selections) :=
          fun hfield => (keeps_arguments false fuel).bind fun _ _ =>
            (keeps_directives false fuel).bind fun _ _ =>
              (keeps_block? ih fuel).bind fun _ _ => .pure (hfield _ _ _)
        refine keeps_name.bind fun first hfirst => (keeps_accept _).bind fun hasAlias _ => ?_
        dsimp only
        refine .ite (fun _ => ?_) fun _ => ?_
        · refine (keeps_name.map (Q := fun second => ∃ name, second = some name ∧
            isName name = true) fun name hname => ⟨name, rfl, hname⟩).bind fun second hsecond => ?_
          obtain ⟨name, rfl, hname⟩ := hsecond
          exact hrest fun _ _ _ => ⟨hname, fun key hkey => Option.some.inj hkey ▸ hfirst⟩
        · refine (Keeps.pure (P := (· = none)) rfl).bind fun second hsecond => ?_
          obtain rfl := hsecond
          exact hrest fun _ _ _ => ⟨hfirst, fun _ hkey => nomatch hkey⟩

/-- The entries of a selection set go by names. -/
theorem keeps_selectionSet (fuel : Nat) :
    Keeps (fun selections => ∀ selection ∈ selections, selection.IsNamed) (selectionSet fuel) :=
  keeps_block (keeps_selection fuel) fuel

/-- **An operation goes by names.** -/
theorem keeps_operationDecl (fuel : Nat) (kind : RootKind) :
    Keeps OperationDecl.IsNamed (operationDecl fuel kind) := by
  have hvariable : Keeps (fun var => isName var.name = true) (variableDecl fuel) :=
    (keeps_expect _).bind fun _ _ => (keeps_labelled (keeps_type fuel)).bind fun _ hlabel =>
      (keeps_default? fuel).bind fun _ _ => (keeps_directives true fuel).bind fun _ _ =>
        .pure hlabel.1
  have hrest : ∀ name : Option String, (∀ text ∈ name, isName text = true) →
      Keeps OperationDecl.IsNamed (do
        let vars ← block? fuel '(' ')' (variableDecl fuel)
        let directives ← directives false fuel
        return ({ kind, name, vars, directives, selections := ← selectionSet fuel } :
          OperationDecl)) := fun _ hname =>
    (keeps_block? hvariable fuel).bind fun _ hvars => (keeps_directives false fuel).bind fun _ _ =>
      (keeps_selectionSet fuel).bind fun _ hselections => .pure ⟨hname, hvars, hselections⟩
  have hlabel : Keeps (fun label? : Option String => ∀ label ∈ label?, isName label = true)
      (some <$> name) :=
    keeps_name.map fun _ hname _ hmem => Option.some.inj hmem ▸ hname
  refine keeps_peek?.bind fun next? _ => ?_
  dsimp only
  split
  · exact hlabel.bind hrest
  · exact (Keeps.pure fun _ hmem => nomatch hmem).bind hrest

theorem keeps_fragmentDecl (fuel : Nat) : Keeps (fun _ => True) (fragmentDecl fuel) :=
  keeps_fragmentName.bind fun _ _ => (keeps_expect _).bind fun _ _ => keeps_name.bind fun _ _ =>
    (keeps_directives false fuel).bind fun _ _ =>
      (keeps_selectionSet fuel).bind fun _ _ => .pure trivial

/-! ### Documents -/

theorem keeps_schemaDefinition (fuel : Nat) (description : Option String) (keyword : String) :
    Keeps (fun definition => definition.IsNamed ∧ definition.OperationIsNamed)
      (schemaDefinition fuel description keyword) :=
  .ite
    (fun _ => (keeps_directives true fuel).bind fun _ _ =>
      (keeps_block keeps_root fuel).bind fun _ hroots => .pure ⟨hroots, nofun⟩)
    fun _ => .ite
      (fun _ => (keeps_directiveDecl fuel).bind fun _ _ => .pure ⟨trivial, nofun⟩)
      fun _ => .ite
        (fun _ => (keeps_typeDecl fuel description keyword).bind fun _ hnamed =>
          .pure ⟨hnamed, nofun⟩)
        fun _ => keeps_failure

theorem keeps_extension (fuel : Nat) :
    Keeps (fun definition => definition.IsNamed ∧ definition.OperationIsNamed)
      (extension fuel) := by
  refine keeps_name.bind fun keyword _ => .ite (fun _ => ?_) fun _ => .ite (fun _ => ?_)
    fun _ => keeps_failure
  · exact (keeps_directives true fuel).bind fun _ _ =>
      (keeps_block? keeps_root fuel).bind fun _ hroots =>
        .ite (fun _ => keeps_failure) fun _ => .pure ⟨hroots, nofun⟩
  · exact (keeps_typeDecl fuel none keyword).bind fun _ hnamed =>
      .ite (fun _ => .pure ⟨hnamed, nofun⟩) fun _ => keeps_failure

/-- **A definition goes by names**, an operation also where it consists of its entries. -/
theorem keeps_definition (fuel : Nat) :
    Keeps (fun definition => definition.IsNamed ∧ definition.OperationIsNamed)
      (definition fuel) := by
  have hoperation : ∀ declaration : OperationDecl, declaration.IsNamed →
      (Definition.operation declaration).OperationIsNamed :=
    fun _ hnamed _ heq => Definition.operation.inj heq ▸ hnamed
  refine keeps_peek?.bind fun next? _ => ?_
  split
  · exact (keeps_selectionSet fuel).bind fun _ hselections =>
      .pure ⟨trivial, hoperation _ ⟨nofun, nofun, hselections⟩⟩
  · exact keeps_text?.bind fun description _ => keeps_name.bind fun keyword _ =>
      keeps_schemaDefinition fuel description keyword
  · refine keeps_name.bind fun keyword _ => .ite (fun _ => keeps_extension fuel) fun _ =>
      .ite (fun _ => (keeps_fragmentDecl fuel).bind fun _ _ => .pure ⟨trivial, nofun⟩) fun _ => ?_
    split
    · exact (keeps_operationDecl fuel _).bind fun _ hnamed =>
        .pure ⟨trivial, hoperation _ hnamed⟩
    · exact keeps_schemaDefinition fuel none keyword

/-- What is read of each definition is read of all. -/
theorem keeps_definitions {P : Definition → Prop} {fuel : Nat} (h : Keeps P (definition fuel))
    (count : Nat) :
    Keeps (fun document => ∀ definition ∈ document, P definition) (definitions fuel count) := by
  induction count with
  | zero => exact keeps_failure
  | succ count ih =>
      refine h.bind fun first hfirst => keeps_peek?.bind fun next? _ =>
        .ite (fun _ => .pure (List.forall_mem_singleton.mpr hfirst)) fun _ => ?_
      exact ih.bind fun others hothers => .pure (List.forall_mem_cons.mpr ⟨hfirst, hothers⟩)

end Parser

/-- What is read of definitions holds of those in a document. -/
theorem Document.forall_mem_of_parse? {P : Definition → Prop}
    (hreader : ∀ fuel, Parser.Keeps P (Parser.definition fuel)) {text : String}
    {document : Document} (h : Document.parse? text = some document) :
    ∀ definition ∈ document, P definition := by
  rw [parse?, Option.bind_eq_bind, Option.bind_eq_some_iff] at h
  obtain ⟨tokens, htokens, h⟩ := h
  dsimp only at h
  rw [Option.bind_eq_bind, Option.bind_eq_some_iff] at h
  obtain ⟨⟨read, rest⟩, hread, h⟩ := h
  obtain rfl := Option.some.inj h
  exact (Parser.keeps_definitions (hreader _) _ tokens _ rest (Token.areNamed_of_scan? htokens)
    hread).1

/-- **Everything in a document goes by names.** -/
theorem Document.isNamed_of_parse? {text : String} {document : Document}
    (h : Document.parse? text = some document) :
    ∀ definition ∈ document, definition.IsNamed := fun definition hdefinition =>
  (forall_mem_of_parse? Parser.keeps_definition h definition hdefinition).1

end ClientSdk
