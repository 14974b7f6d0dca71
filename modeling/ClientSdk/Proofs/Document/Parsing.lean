import ClientSdk.Document.Parser

/-!
# Reading Tokens Back

What a reader makes of tokens that are written for it, whatever comes after them. A part of a
document may go on with certain punctuation characters; where none of these comes next, the part
ends. Lists of items are read item by item, and fail as soon as one item does.

## Main definitions

* `Parser.Ends`: the tokens do not go on with the part of a document before them.
* `TypeRef.tokens`: a reference to a type as tokens.

## Main results

* `Parser.type_tokens`: a reference is read back.
* `Parser.itemsTo_flatMap`, `Parser.block_flatMap`: lists of items are read back.
-/

namespace ClientSdk

/-! ### References as tokens -/

namespace TypeRef

/-- The mark after a level that excludes null. -/
def markTokens (nullable : Bool) : List Token := if nullable then [] else [.punctuator '!']

/-- The tokens of a reference. -/
def tokens : TypeRef → List Token
  | named name nullable => .name name :: markTokens nullable
  | list element nullable =>
    .punctuator '[' :: (element.tokens ++ .punctuator ']' :: markTokens nullable)

end TypeRef

namespace Parser

variable {α β : Type} {fuel : Nat} {rest tokens : List Token}

/-! ### Readers applied to tokens -/

theorem bind_apply (reader : Parser α) (next : α → Parser β) (tokens : List Token) :
    (reader >>= next) tokens = (reader tokens).bind fun read => next read.1 read.2 :=
  rfl

theorem pure_apply (a : α) (tokens : List Token) : (pure a : Parser α) tokens = some (a, tokens) :=
  rfl

theorem peek?_apply (tokens : List Token) : peek? tokens = some (tokens.head?, tokens) := rfl

theorem name_cons (text : String) (rest : List Token) :
    name (.name text :: rest) = some (text, rest) := rfl

theorem text?_string (text : String) (rest : List Token) :
    text? (.string text :: rest) = some (some text, rest) := rfl

theorem text?_name (text : String) (rest : List Token) :
    text? (.name text :: rest) = some (none, .name text :: rest) := rfl

theorem accept_self (token : Token) (rest : List Token) :
    accept token (token :: rest) = some (true, rest) := by
  rw [accept, if_pos rfl]

theorem accept_of_ne {token : Token} (h : rest.head? ≠ some token) :
    accept token rest = some (false, rest) := by
  cases rest with
  | nil => rfl
  | cons first rest =>
      rw [accept, if_neg]
      rintro rfl
      exact h rfl

theorem expect_self (token : Token) (rest : List Token) :
    expect token (token :: rest) = some ((), rest) := by
  rw [expect, bind_apply, accept_self]
  rfl

theorem expect_of_ne {token : Token} (h : rest.head? ≠ some token) : expect token rest = none := by
  rw [expect, bind_apply, accept_of_ne h]
  rfl

/-! ### Where a part ends -/

/-- The tokens go on with no type, default value or directive before them. -/
def Ends (rest : List Token) : Prop :=
  ∀ c ∈ ['!', '=', '@'], rest.head? ≠ some (.punctuator c)

theorem ends_name (text : String) (rest : List Token) : Ends (.name text :: rest) :=
  fun _ _ h => nomatch h

theorem ends_string (text : String) (rest : List Token) : Ends (.string text :: rest) :=
  fun _ _ h => nomatch h

theorem ends_punctuator {c : Char} (h : c ∉ ['!', '=', '@']) (rest : List Token) :
    Ends (.punctuator c :: rest) := by
  rintro c' hc' heq
  obtain rfl := Token.punctuator.inj (Option.some.inj heq)
  exact h hc'

/-- Without a directive next, there are none. -/
theorem directives_of_ends (h : Ends rest) (hfuel : 0 < fuel) (constant : Bool) :
    directives constant fuel rest = some ([], rest) := by
  obtain ⟨fuel, rfl⟩ := Nat.exists_eq_succ_of_ne_zero (Nat.ne_of_gt hfuel)
  rw [directives, marked, bind_apply, accept_of_ne (h '@' (by decide))]
  rfl

/-- Without an equals sign next, there is no default value. -/
theorem default?_of_ends (h : Ends rest) (fuel : Nat) : default? fuel rest = some (none, rest) := by
  rw [default?, bind_apply, accept_of_ne (h '=' (by decide))]
  rfl

/-! ### Types -/

/-- The mark after a level is read back. -/
theorem accept_markTokens (nullable : Bool) (h : Ends rest) :
    accept (.punctuator '!') (TypeRef.markTokens nullable ++ rest) = some (!nullable, rest) := by
  cases nullable with
  | true => exact accept_of_ne (h '!' (by decide))
  | false => exact accept_self _ _

/-- **A reference to a type is read back.** Each level takes a token, which bounds the levels. -/
theorem type_tokens (type : TypeRef) (hfuel : type.tokens.length ≤ fuel) (h : Ends rest) :
    Parser.type fuel (type.tokens ++ rest) = some (type, rest) := by
  induction type generalizing fuel rest with
  | named name nullable =>
      cases fuel with
      | zero => cases hfuel
      | succ fuel =>
          have hname : (.name name :: (TypeRef.markTokens nullable ++ rest)).head? ≠
              some (Token.punctuator '[') := fun heq => nomatch heq
          rw [TypeRef.tokens, List.cons_append, Parser.type, bind_apply, accept_of_ne hname]
          simp only [Option.bind_some, Bool.false_eq_true, if_false, bind_apply, name_cons,
            accept_markTokens nullable h, pure_apply, Bool.not_not]
  | list element nullable ih =>
      cases fuel with
      | zero => cases hfuel
      | succ fuel =>
          simp only [TypeRef.tokens, List.length_cons, List.length_append] at hfuel
          have helement := @ih fuel (.punctuator ']' :: (TypeRef.markTokens nullable ++ rest))
            (by omega) (ends_punctuator (by decide) _)
          rw [TypeRef.tokens, List.cons_append, List.append_assoc, List.cons_append, Parser.type,
            bind_apply, accept_self]
          simp only [Option.bind_some, if_true, bind_apply, helement, expect_self,
            accept_markTokens nullable h, pure_apply, Bool.not_not]

/-! ### Lists -/

section

variable {item : Parser β} {parts : α → List Token} {good : α → Bool} {result : α → β}
  {closing opening : Char} {items : List α}

/-- The first token is no punctuation character, so it neither closes a list nor goes on with the
item before it. -/
def Starts (tokens : List Token) : Prop :=
  (∃ text rest, tokens = .name text :: rest) ∨ ∃ text rest, tokens = .string text :: rest

theorem Starts.append (h : Starts tokens) (rest : List Token) : Starts (tokens ++ rest) := by
  rcases h with ⟨text, others, rfl⟩ | ⟨text, others, rfl⟩
  · exact Or.inl ⟨text, others ++ rest, rfl⟩
  · exact Or.inr ⟨text, others ++ rest, rfl⟩

theorem Starts.ends (h : Starts tokens) : Ends tokens := by
  rcases h with ⟨text, others, rfl⟩ | ⟨text, others, rfl⟩
  · exact ends_name text others
  · exact ends_string text others

theorem Starts.head?_ne (h : Starts tokens) (c : Char) :
    tokens.head? ≠ some (.punctuator c) := by
  rcases h with ⟨text, others, rfl⟩ | ⟨text, others, rfl⟩
  · exact fun heq => nomatch heq
  · exact fun heq => nomatch heq

/-- What comes after an item of a list ends it: the next item, or the end of the list. -/
theorem ends_flatMap_append (hstarts : ∀ a ∈ items, Starts (parts a))
    (hclosing : closing ∉ ['!', '=', '@']) (rest : List Token) :
    Ends (items.flatMap parts ++ .punctuator closing :: rest) := by
  cases items with
  | nil => exact ends_punctuator hclosing rest
  | cons a items =>
      rw [List.flatMap_cons, List.append_assoc]
      exact ((hstarts a List.mem_cons_self).append _).ends

variable (hitem : ∀ a ∈ items, ∀ rest, Ends rest →
    item (parts a ++ rest) = if good a then some (result a, rest) else none)
  (hstarts : ∀ a ∈ items, Starts (parts a)) (hclosing : closing ∉ ['!', '=', '@'])

include hitem hstarts hclosing

/-- **Items up to a closing token are read back**, unless one of them cannot be read. -/
theorem itemsTo_flatMap (hfuel : items.length < fuel) (rest : List Token) :
    itemsTo (.punctuator closing) item fuel
        (items.flatMap parts ++ .punctuator closing :: rest) =
      if items.all good then some (items.map result, rest) else none := by
  induction items generalizing fuel with
  | nil =>
      cases fuel with
      | zero => cases hfuel
      | succ fuel =>
          rw [itemsTo, bind_apply, List.flatMap_nil, List.nil_append, accept_self]
          rfl
  | cons a items ih =>
      cases fuel with
      | zero => cases hfuel
      | succ fuel =>
          obtain ⟨hfirst, hitems⟩ := List.forall_mem_cons.mp hitem
          obtain ⟨hfirstStarts, hitemsStart⟩ := List.forall_mem_cons.mp hstarts
          have hrest := ih hitems hitemsStart (Nat.lt_of_succ_lt_succ hfuel)
          have hends := ends_flatMap_append hitemsStart hclosing rest
          have hopen := (hfirstStarts.append
            (items.flatMap parts ++ .punctuator closing :: rest)).head?_ne closing
          rw [List.flatMap_cons, List.append_assoc, itemsTo, bind_apply, accept_of_ne hopen]
          simp only [Option.bind_some, Bool.false_eq_true, if_false, bind_apply,
            hfirst _ hends, List.all_cons, List.map_cons, Bool.and_eq_true]
          cases good a with
          | false => simp
          | true =>
              simp only [if_true, Option.bind_some, hrest, true_and]
              cases items.all good with
              | false => rfl
              | true => rfl

/-- **A block of items is read back**, unless one of them cannot be read or there is none. -/
theorem block_flatMap (hfuel : items.length < fuel)
    (hnone : ∀ rest, item (.punctuator closing :: rest) = none) (rest : List Token) :
    block fuel opening closing item
        (.punctuator opening :: (items.flatMap parts ++ .punctuator closing :: rest)) =
      if !items.isEmpty && items.all good then some (items.map result, rest) else none := by
  cases items with
  | nil =>
      rw [block, bind_apply, expect_self]
      simp only [Option.bind_some, bind_apply, List.flatMap_nil, List.nil_append, hnone]
      rfl
  | cons a items =>
      obtain ⟨hfirst, hitems⟩ := List.forall_mem_cons.mp hitem
      obtain ⟨-, hitemsStart⟩ := List.forall_mem_cons.mp hstarts
      have hrest := itemsTo_flatMap hitems hitemsStart hclosing
        (Nat.lt_of_succ_lt hfuel) rest
      have hends := ends_flatMap_append hitemsStart hclosing rest
      rw [List.flatMap_cons, List.append_assoc, block, bind_apply, expect_self]
      simp only [Option.bind_some, bind_apply, hfirst _ hends, List.isEmpty_cons, Bool.not_false,
        List.all_cons, List.map_cons, Bool.true_and, Bool.and_eq_true]
      cases good a with
      | false => simp
      | true =>
          simp only [if_true, Option.bind_some, hrest, true_and]
          cases items.all good with
          | false => rfl
          | true => rfl

end

/-- Where the opening character is not next, there is no block. -/
theorem block?_of_ne {item : Parser α} {opening closing : Char}
    (h : rest.head? ≠ some (.punctuator opening)) :
    block? fuel opening closing item rest = some ([], rest) := by
  rw [block?, bind_apply, peek?_apply, Option.bind_some, if_neg h]
  rfl

/-- Where the opening character is next, there is a block. -/
theorem block?_cons {item : Parser α} {opening closing : Char} (rest : List Token) :
    block? fuel opening closing item (.punctuator opening :: rest) =
      block fuel opening closing item (.punctuator opening :: rest) := by
  rw [block?, bind_apply, peek?_apply, Option.bind_some, List.head?_cons, if_pos rfl]

end Parser

end ClientSdk
