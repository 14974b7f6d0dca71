import ClientSdk.Proofs.Augmentation.Preservation
import ClientSdk.Proofs.Document.Names
import ClientSdk.Proofs.Schema.Names
import ClientSdk.Schema.Reading

/-!
# What a Text Can Declare

A schema that has been read from a text has the scalars that every schema has and, beside them,
object types and input types that go by names. None of them takes the name of a root or of a type
of every schema. This holds of the empty schema, and every type that is put in its place keeps it.

## Main definitions

* `TypeDef.IsDeclared`: a type as a document can declare it.
* `Schema.Loaded`: a schema as a text can declare it.

## Main results

* `Declarations.isNamed_of_ofDocument?`: the types and the roots of a document go by names.
* `Schema.Loaded.place`: a type that is put in its place.
* `Schema.exists_foldl_place_of_ofText`: how a text is read.
* `Schema.loaded_of_ofText`: what a text declares.
-/

namespace ClientSdk

open Token

/-! ### Type maps -/

namespace TypeMap

variable {types : TypeMap} {key : String} {type : TypeDef} {entry : String × TypeDef}

/-- An entry after an insertion is the one that was inserted, or it was there before. -/
theorem eq_or_mem_of_mem_entries_insert (h : entry ∈ (types.insert key type).entries) :
    entry = (key, type) ∨ entry ∈ types.entries := by
  rw [insert] at h
  split at h
  · obtain ⟨old, hold, rfl⟩ := List.mem_map.mp h
    split
    · rename_i hkey
      exact Or.inl (by rw [hkey])
    · exact Or.inr hold
  · rcases List.mem_append.mp h with hold | hnew
    · exact Or.inr hold
    · exact Or.inl (List.mem_singleton.mp hnew)

/-- An insertion keeps the entries under other keys. -/
theorem mem_entries_insert_of_ne (h : entry ∈ types.entries) (hne : entry.1 ≠ key) :
    entry ∈ (types.insert key type).entries := by
  rw [insert]
  split
  · exact List.mem_map.mpr ⟨entry, h, if_neg hne⟩
  · exact List.mem_append_left _ h

end TypeMap

/-! ### Declarations of a document -/

/-- A step of a list that gives a result gives it for a member. -/
theorem exists_of_mem_mapM_option {α β : Type} {f : α → Option β} {as : List α} {bs : List β}
    (h : as.mapM f = some bs) {b : β} (hb : b ∈ bs) : ∃ a ∈ as, f a = some b := by
  induction as generalizing bs with
  | nil =>
      obtain rfl := Option.some.inj h
      exact absurd hb List.not_mem_nil
  | cons a as ih =>
      simp only [List.mapM_cons, Option.bind_eq_bind, Option.bind_eq_some_iff] at h
      obtain ⟨first, hfirst, rest, hrest, h⟩ := h
      obtain rfl := Option.some.inj h
      rcases List.mem_cons.mp hb with rfl | hmem
      · exact ⟨a, List.mem_cons_self, hfirst⟩
      · obtain ⟨a', ha', hf⟩ := ih hrest hmem
        exact ⟨a', List.mem_cons_of_mem _ ha', hf⟩

/-- What goes by names goes by names with an addition. -/
theorem TypeBody.isNamed_of_append? {body addition result : TypeBody}
    (h : body.append? addition = some result) (hbody : body.IsNamed)
    (haddition : addition.IsNamed) : result.IsNamed := by
  rw [append?.eq_def] at h
  split at h
  case h_7 => cases h
  all_goals obtain rfl := Option.some.inj h
  case h_2 | h_3 | h_6 => exact List.forall_mem_append.mpr ⟨hbody, haddition⟩
  all_goals trivial

namespace TypeDecl

/-- An addition keeps the name of a type, and names stay names. -/
theorem isNamed_of_append? {declaration addition result : TypeDecl}
    (h : declaration.append? addition = some result) (hdeclaration : declaration.IsNamed)
    (haddition : addition.IsNamed) : result.IsNamed ∧ result.name = declaration.name := by
  rw [append?, Option.bind_eq_bind, Option.bind_eq_some_iff] at h
  obtain ⟨body, hbody, h⟩ := h
  obtain rfl := Option.some.inj h
  exact ⟨⟨hdeclaration.name, TypeBody.isNamed_of_append? hbody hdeclaration.body
    haddition.body⟩, rfl⟩

/-- The additions to a type keep its name, and names stay names. -/
theorem isNamed_of_extend? {additions : List TypeDecl} {declaration result : TypeDecl}
    (h : declaration.extend? additions = some result) (hdeclaration : declaration.IsNamed)
    (hadditions : ∀ addition ∈ additions, addition.IsNamed) :
    result.IsNamed ∧ result.name = declaration.name := by
  have hfold : ∀ (own : List TypeDecl) (current last : TypeDecl),
      (∀ addition ∈ own, addition.IsNamed) → current.IsNamed →
      own.foldlM append? current = some last → last.IsNamed ∧ last.name = current.name := by
    intro own
    induction own with
    | nil =>
        intro current last _ hcurrent hlast
        obtain rfl := Option.some.inj hlast
        exact ⟨hcurrent, rfl⟩
    | cons addition own ih =>
        intro current last hown hcurrent hlast
        obtain ⟨hfirst, hothers⟩ := List.forall_mem_cons.mp hown
        rw [List.foldlM_cons, Option.bind_eq_bind, Option.bind_eq_some_iff] at hlast
        obtain ⟨next, hnext, hlast⟩ := hlast
        obtain ⟨hnamed, hname⟩ := isNamed_of_append? hnext hcurrent hfirst
        obtain ⟨hlastNamed, hlastName⟩ := ih next last hothers hnamed hlast
        exact ⟨hlastNamed, hlastName.trans hname⟩
  rw [extend?] at h
  simp only [Option.bind_eq_bind, Option.bind_eq_some_iff] at h
  obtain ⟨extended, hextended, h⟩ := h
  split at h
  · obtain rfl := Option.some.inj h
    exact hfold _ declaration _
      (fun addition haddition => hadditions addition (List.mem_filter.mp haddition).1)
      hdeclaration hextended
  · cases h

end TypeDecl

namespace Declarations

/-- A type that is only ever added to goes by a name that is not among the known ones. -/
theorem isNamed_of_mem_undeclared {names : List String} {additions : List TypeDecl}
    (hadditions : ∀ addition ∈ additions, addition.IsNamed) {declaration : TypeDecl}
    (h : declaration ∈ undeclared names additions) :
    declaration.IsNamed ∧ declaration.name ∉ names := by
  induction additions generalizing names with
  | nil => exact absurd h List.not_mem_nil
  | cons addition additions ih =>
      obtain ⟨hfirst, hothers⟩ := List.forall_mem_cons.mp hadditions
      rw [undeclared] at h
      split at h
      · exact ih hothers h
      · rename_i hnew
        rcases List.mem_cons.mp h with rfl | hlater
        · refine ⟨⟨hfirst.name, ?_⟩, hnew⟩
          dsimp only
          split
          all_goals first
            | trivial
            | exact fun _ hmem => absurd hmem List.not_mem_nil
        · obtain ⟨hnamed, hname⟩ := ih hothers hlater
          exact ⟨hnamed, fun hmem => hname (List.mem_cons_of_mem _ hmem)⟩

/-- The roots of a document go by names. -/
theorem isName_of_mem_rootsOf? {document : Document} {roots : Roots}
    (hnamed : ∀ definition ∈ document, definition.IsNamed)
    (h : rootsOf? document = some roots) : ∀ root ∈ roots, isName root.2 = true := by
  have hadded : ∀ root ∈ document.addedRoots, isName root.2 = true := by
    intro root hroot
    obtain ⟨definition, hdefinition, hmem⟩ := List.mem_flatMap.mp hroot
    split at hmem
    · exact hnamed _ hdefinition root hmem
    · exact absurd hmem List.not_mem_nil
  have husual : ∀ root ∈ usualRoots document.types, isName root.2 = true := by
    intro root hroot
    obtain ⟨kind, -, hkind⟩ := List.mem_filterMap.mp hroot
    obtain ⟨declaration, -, hdeclaration⟩ := List.exists_of_findSome?_eq_some hkind
    split at hdeclaration
    · split at hdeclaration
      · rename_i hname
        obtain rfl := Option.some.inj hdeclaration
        rw [hname]
        cases kind with
        | query => decide
        | mutation => decide
        | subscription => decide
      · cases hdeclaration
    · cases hdeclaration
  rw [rootsOf?] at h
  dsimp only at h
  obtain ⟨own, hown, h⟩ := Option.bind_eq_some_iff.mp h
  split at h
  · obtain rfl := Option.some.inj h
    refine List.forall_mem_append.mpr ⟨?_, hadded⟩
    split at hown
    · obtain rfl := Option.some.inj hown
      exact husual
    · rename_i roots hschemas
      obtain rfl := Option.some.inj hown
      have hmem : roots ∈ document.schemas := hschemas ▸ List.mem_singleton_self roots
      obtain ⟨definition, hdefinition, hmatch⟩ := List.mem_filterMap.mp hmem
      split at hmatch
      · obtain rfl := Option.some.inj hmatch
        exact hnamed _ hdefinition
      · cases hmatch
    · cases hown
  · cases h

/-- **The types and the roots of a document go by names**, and the types have no built-in
names. -/
theorem isNamed_of_ofDocument? {document : Document} {declarations : Declarations}
    (hnamed : ∀ definition ∈ document, definition.IsNamed)
    (h : ofDocument? document = some declarations) :
    (∀ type ∈ declarations.types, type.IsNamed ∧ BuiltIn.isTypeName type.name = false) ∧
      ∀ root ∈ declarations.roots, isName root.2 = true := by
  have htypes : ∀ type ∈ document.types, type.IsNamed := by
    intro type htype
    obtain ⟨definition, hdefinition, hmatch⟩ := List.mem_filterMap.mp htype
    split at hmatch
    · obtain rfl := Option.some.inj hmatch
      exact hnamed _ hdefinition
    · cases hmatch
  have hadditions : ∀ addition ∈ document.typeExtensions, addition.IsNamed := by
    intro addition haddition
    obtain ⟨definition, hdefinition, hmatch⟩ := List.mem_filterMap.mp haddition
    split at hmatch
    · obtain rfl := Option.some.inj hmatch
      exact hnamed _ hdefinition
    · cases hmatch
  have hbuiltin : ∀ name, BuiltIn.isTypeName name = false ↔
      name ∉ BuiltIn.types.map (·.name) := by
    intro name
    rw [← Bool.not_eq_true, BuiltIn.isTypeName, List.any_eq_true, List.mem_map]
    simp
  rw [ofDocument?] at h
  dsimp only at h
  split at h
  · rename_i hvalid
    simp only [Bool.and_eq_true, Bool.not_eq_true', List.any_eq_false] at hvalid
    simp only [Option.bind_eq_bind, Option.bind_eq_some_iff] at h
    obtain ⟨types, hextended, builtins, -, roots, hroots, h⟩ := h
    obtain rfl := Option.some.inj h
    refine ⟨fun type htype => ?_, isName_of_mem_rootsOf? hnamed hroots⟩
    obtain ⟨declaration, hdeclaration, hextend⟩ := exists_of_mem_mapM_option hextended htype
    have hdeclared : declaration.IsNamed ∧
        declaration.name ∉ BuiltIn.types.map (·.name) := by
      rcases List.mem_append.mp hdeclaration with hown | hlater
      · refine ⟨htypes _ hown, fun hmem => ?_⟩
        exact hvalid.1.1.2 declaration.name (List.mem_map_of_mem hown)
          (List.contains_iff_mem.mpr hmem)
      · obtain ⟨hown, hname⟩ := isNamed_of_mem_undeclared hadditions hlater
        exact ⟨hown, fun hmem => hname (List.mem_append_right _ hmem)⟩
    obtain ⟨hown, hname⟩ := TypeDecl.isNamed_of_extend? hextend hdeclared.1 hadditions
    exact ⟨hown, (hbuiltin _).mpr (hname ▸ hdeclared.2)⟩
  · cases h

/-- No type of a document declares anything twice. -/
theorem isDistinct_of_ofDocument? {document : Document} {declarations : Declarations}
    (h : ofDocument? document = some declarations) {type : TypeDecl}
    (htype : type ∈ declarations.types) : type.body.isDistinct = true := by
  rw [ofDocument?] at h
  dsimp only at h
  split at h
  · simp only [Option.bind_eq_bind, Option.bind_eq_some_iff] at h
    obtain ⟨types, hextended, builtins, -, roots, -, h⟩ := h
    obtain rfl := Option.some.inj h
    obtain ⟨declaration, -, hextend⟩ := exists_of_mem_mapM_option hextended htype
    rw [TypeDecl.extend?] at hextend
    simp only [Option.bind_eq_bind, Option.bind_eq_some_iff] at hextend
    obtain ⟨extended, -, hextend⟩ := hextend
    split at hextend
    · rename_i hdistinct
      obtain rfl := Option.some.inj hextend
      exact hdistinct
    · cases hextend
  · cases h

end Declarations

/-! ### Schemas -/

/-- A type as a document can declare it. -/
structure TypeDef.IsDeclared (type : TypeDef) : Prop where
  /-- It counts as declared by the user. -/
  builtin : type.builtin = false
  /-- It has fields. -/
  kind : type.kind ≠ .scalar
  /-- It takes the place of no type of every schema. -/
  name : BuiltIn.isTypeName type.name = false
  /-- It goes by names. -/
  goesBy : type.GoesBy (isName · = true)
  /-- The fields of input types take no arguments. -/
  arguments : type.kind = .input → ∀ field ∈ type.fields, field.arguments = []

/-- A schema as a text can declare it. -/
structure Schema.Loaded (schema : Schema) : Prop where
  /-- Every type stands under its own name. -/
  keyed : schema.Keyed
  /-- The scalars that every schema has are there. -/
  standard : ∀ name ∈ standardScalars, schema.get? name = some (.givenScalar name)
  /-- The other types are declared by the document, and they are no roots. -/
  values : ∀ type ∈ schema.types.values,
    (type.name ∈ standardScalars ∧ type = .givenScalar type.name) ∨
      (type.IsDeclared ∧ type.name ≠ schema.query.name ∧ type.name ≠ schema.mutation.name)
  /-- The roots go by names. -/
  roots : schema.query.GoesBy (isName · = true) ∧ schema.mutation.GoesBy (isName · = true)

/-- A type that a document declares is read as such. -/
theorem TypeDecl.isDeclared_of_toTypeDef {declaration : TypeDecl} {type : TypeDef}
    (h : declaration.toTypeDef = .ok type) (hnamed : declaration.IsNamed)
    (hname : BuiltIn.isTypeName declaration.name = false) : type.IsDeclared := by
  have hbody := hnamed.body
  rw [toTypeDef] at h
  split at h
  · rename_i fields heq
    obtain rfl := Except.ok.inj h
    rw [heq] at hbody
    refine ⟨rfl, by simp, hname, ⟨hnamed.name, ?_⟩, by simp⟩
    intro field hfield
    obtain ⟨field, hmem, rfl⟩ := List.mem_map.mp hfield
    have hfield := hbody field hmem
    refine ⟨hfield.name, hfield.type, ?_⟩
    intro arg harg
    obtain ⟨arg, hmem, rfl⟩ := List.mem_map.mp harg
    exact ⟨(hfield.arguments arg hmem).name, (hfield.arguments arg hmem).type⟩
  · rename_i fields heq
    obtain rfl := Except.ok.inj h
    rw [heq] at hbody
    refine ⟨rfl, by simp, hname, ⟨hnamed.name, ?_⟩, ?_⟩
    · intro field hfield
      obtain ⟨field, hmem, rfl⟩ := List.mem_map.mp hfield
      exact ⟨(hbody field hmem).name, (hbody field hmem).type,
        fun _ harg => absurd harg List.not_mem_nil⟩
    · intro _ field hfield
      obtain ⟨field, -, rfl⟩ := List.mem_map.mp hfield
      rfl
  · cases h

/-- Fields that are declared once are fields of distinct names. -/
theorem TypeDecl.distinctFields_of_toTypeDef {declaration : TypeDecl} {type : TypeDef}
    (h : declaration.toTypeDef = .ok type) (hdistinct : declaration.body.isDistinct = true) :
    type.DistinctFields := by
  rw [toTypeDef] at h
  split at h
  · rename_i fields heq
    obtain rfl := Except.ok.inj h
    rw [heq, TypeBody.isDistinct, Bool.and_eq_true, allDistinct, allDistinct, decide_eq_true_iff,
      decide_eq_true_iff] at hdistinct
    rw [TypeDef.DistinctFields, List.map_map]
    exact hdistinct.2
  · rename_i fields heq
    obtain rfl := Except.ok.inj h
    rw [heq, TypeBody.isDistinct, allDistinct, decide_eq_true_iff] at hdistinct
    rw [TypeDef.DistinctFields, List.map_map]
    exact hdistinct
  · cases h

namespace Schema

variable {schema : Schema}

/-- The empty schema is loaded. -/
theorem loaded_ofRoots {query mutation : String} (hquery : isName query = true)
    (hmutation : isName mutation = true) : (ofRoots query mutation).Loaded := by
  have hentries : (ofRoots query mutation).types.entries =
      standardScalars.map fun name => (name, .givenScalar name) := rfl
  have hroot : ∀ name, isName name = true →
      ({ name } : TypeDef).GoesBy (isName · = true) := fun name hname =>
    ⟨hname, fun _ hmem => absurd hmem List.not_mem_nil⟩
  refine ⟨?_, ?_, ?_, hroot query hquery, hroot mutation hmutation⟩
  · intro entry hentry
    rw [hentries] at hentry
    obtain ⟨name, -, rfl⟩ := List.mem_map.mp hentry
    rfl
  · intro name hname
    rw [get?, TypeMap.get?_eq_some_iff, hentries]
    exact List.mem_map_of_mem hname
  · intro type htype
    rw [TypeMap.values, hentries, List.map_map] at htype
    obtain ⟨name, hname, rfl⟩ := List.mem_map.mp htype
    exact Or.inl ⟨hname, rfl⟩

/-- No scalar of every schema has the name of a type that a document declares. -/
theorem notMem_standardScalars {name : String} (h : BuiltIn.isTypeName name = false) :
    name ∉ standardScalars := by
  intro hmem
  have hstandard : ∀ name ∈ standardScalars, BuiltIn.isTypeName name = true := by decide
  exact Bool.false_ne_true (h.symm.trans (hstandard name hmem))

/-- The roots keep their names when a type is put in its place. -/
theorem name_roots_place (schema : Schema) (type : TypeDef) :
    (schema.place schema.query.name schema.mutation.name type).query.name = schema.query.name ∧
      (schema.place schema.query.name schema.mutation.name type).mutation.name =
        schema.mutation.name := by
  rw [place]
  split
  · rename_i hquery
    exact ⟨hquery, rfl⟩
  split
  · rename_i hmutation
    exact ⟨rfl, hmutation⟩
  · exact ⟨rfl, rfl⟩

/-- What every type keeps that is put in its place, the types keep together. -/
theorem foldl_place_induction {P : Schema → Prop} {types : List TypeDef}
    (hstep : ∀ schema, P schema → ∀ type ∈ types,
      P (schema.place schema.query.name schema.mutation.name type)) (h : P schema) :
    P (types.foldl (Schema.place schema.query.name schema.mutation.name) schema) := by
  induction types generalizing schema with
  | nil => exact h
  | cons type types ih =>
      obtain ⟨hquery, hmutation⟩ := schema.name_roots_place type
      have hrest := ih
        (fun schema h type htype => hstep schema h type (List.mem_cons_of_mem _ htype))
        (hstep schema h type List.mem_cons_self)
      rw [hquery, hmutation] at hrest
      exact hrest

/-- **A type that is put in its place** leaves a loaded schema loaded. -/
theorem Loaded.place (h : schema.Loaded) {type : TypeDef} (htype : type.IsDeclared) :
    (schema.place schema.query.name schema.mutation.name type).Loaded := by
  rw [Schema.place]
  split
  · rename_i hquery
    refine ⟨h.keyed, h.standard, ?_, htype.goesBy, h.roots.2⟩
    rw [hquery]
    exact h.values
  split
  · rename_i hmutation
    refine ⟨h.keyed, h.standard, ?_, h.roots.1, htype.goesBy⟩
    rw [hmutation]
    exact h.values
  · rename_i hquery hmutation
    refine ⟨?_, ?_, ?_, h.roots⟩
    · intro entry hentry
      rcases TypeMap.eq_or_mem_of_mem_entries_insert hentry with rfl | hold
      · rfl
      · exact h.keyed entry hold
    · intro name hname
      have hold := h.standard name hname
      rw [get?, TypeMap.get?_eq_some_iff] at hold ⊢
      refine TypeMap.mem_entries_insert_of_ne hold ?_
      rintro rfl
      exact notMem_standardScalars htype.name hname
    · intro value hvalue
      obtain ⟨entry, hentry, rfl⟩ := List.mem_map.mp hvalue
      rcases TypeMap.eq_or_mem_of_mem_entries_insert hentry with rfl | hold
      · exact Or.inr ⟨htype, hquery, hmutation⟩
      · exact h.values _ (List.mem_map_of_mem hold)

/-- **How a text is read**: its types are put in their places one by one. -/
theorem exists_foldl_place_of_ofText {text : String} (h : Schema.ofText text = .ok schema) :
    ∃ (query mutation : String) (types : List TypeDef),
      isName query = true ∧ isName mutation = true ∧
      (∀ type ∈ types, type.IsDeclared ∧ type.DistinctFields) ∧
      schema = types.foldl (Schema.place query mutation) (ofRoots query mutation) := by
  rw [ofText] at h
  split at h
  · rename_i declarations hdeclarations
    obtain ⟨document, hdocument, hdeclared⟩ := Option.bind_eq_some_iff.mp hdeclarations
    obtain ⟨htypes, hroots⟩ := Declarations.isNamed_of_ofDocument?
      (Document.isNamed_of_parse? hdocument) hdeclared
    have hroot : ∀ kind, isName ((declarations.root? kind).getD
        (Declarations.usualRootName kind)) = true := by
      intro kind
      cases hlookup : declarations.root? kind with
      | none =>
          cases kind with
          | query => decide
          | mutation => decide
          | subscription => decide
      | some name =>
          obtain ⟨before, after, heq, -⟩ := List.lookup_eq_some_iff.mp hlookup
          exact hroots (kind, name) (by simp [heq])
    rw [Declarations.toSchema, bind_eq_ok_iff] at h
    obtain ⟨types, hread, h⟩ := h
    refine ⟨_, _, types, hroot .query, hroot .mutation, fun type htype => ?_,
      (pure_eq_ok_iff.mp h).symm⟩
    obtain ⟨declaration, hdeclaration, htoTypeDef⟩ := exists_of_mem_mapM hread htype
    obtain ⟨hnamed, hname⟩ := htypes declaration hdeclaration
    exact ⟨declaration.isDeclared_of_toTypeDef htoTypeDef hnamed hname,
      TypeDecl.distinctFields_of_toTypeDef htoTypeDef
        (Declarations.isDistinct_of_ofDocument? hdeclared hdeclaration)⟩
  · cases h

/-- **What a text declares** is a loaded schema. -/
theorem loaded_of_ofText {text : String} (h : Schema.ofText text = .ok schema) :
    schema.Loaded := by
  obtain ⟨query, mutation, types, hquery, hmutation, htypes, rfl⟩ := exists_foldl_place_of_ofText h
  exact foldl_place_induction (fun _ h type htype => h.place (htypes type htype).1)
    (loaded_ofRoots hquery hmutation)

end Schema

end ClientSdk
