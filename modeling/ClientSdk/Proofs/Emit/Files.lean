import ClientSdk.Emit.Files
import ClientSdk.Proofs.Emit.Ident
import ClientSdk.Proofs.Lookup

/-!
# The Names of Generated Files

Each operation gives a file with the name of its module, and no two of them have one name. The last
file declares these modules, and it has a name of its own unless an operation has that name too:
nothing compares the modules with it.

What the last file declares is read from its text, line by line.

## Main definitions

* `declaredModules`: the modules that a text declares.
* `unlines`: a text of lines.

## Main results

* `Layout.contents_printAllOn_lines`: lines are printed one below the other.
* `Code.File.print_modules`: the text that declares modules.
* `declaredModules_unlines_modules`: it declares them.
* `operationFiles_eq_ok`, `indexFile_eq_ok`: the files of operations, and the last file.
* `outputFiles_nodup_iff`: the names of all files, and when no file replaces another one.
-/

namespace ClientSdk

/-! ### Modules that a text declares -/

/-- A name without the mark of raw identifiers. -/
def withoutRawMark (name : List Char) : List Char :=
  if "r#".toList.isPrefixOf name then name.drop 2 else name

/-- The module in a file of its own that a line declares, if it declares one. -/
def moduleOfLine? (line : List Char) : Option String :=
  if "pub mod ".toList.isPrefixOf line && line.getLast? == some ';' then
    some (String.ofList (withoutRawMark (line.drop 8).dropLast))
  else none

/-- The modules in files of their own that a text declares, in order. -/
def declaredModules (content : String) : List String :=
  (content.toList.splitOn '\n').filterMap moduleOfLine?

/-- The line that declares a module. -/
def moduleLine (name : Ident) : String := "pub mod " ++ name.spelling ++ ";"

/-- Lines, each with its end. -/
def unlines (lines : List String) : String := String.join (lines.map (· ++ "\n"))

theorem unlines_cons (line : String) (lines : List String) :
    unlines (line :: lines) = line ++ "\n" ++ unlines lines := by
  rw [unlines, List.map_cons, String.join_cons]
  rfl

/-- The modules that lines declare are declared by the lines one by one. -/
theorem declaredModules_unlines {lines : List String} (h : ∀ line ∈ lines, '\n' ∉ line.toList) :
    declaredModules (unlines lines) = lines.filterMap fun line => moduleOfLine? line.toList := by
  induction lines with
  | nil => rfl
  | cons line lines ih =>
      obtain ⟨hline, hlines⟩ := List.forall_mem_cons.mp h
      have hchars : (unlines (line :: lines)).toList =
          line.toList ++ '\n' :: (unlines lines).toList := by
        simp [unlines_cons, String.toList_append]
      rw [declaredModules, hchars, List.splitOn_append_cons_self_of_not_mem hline,
        List.filterMap_cons, List.filterMap_cons, ← declaredModules, ih hlines]

/-- Lines before others are written before them. -/
theorem unlines_append (lines others : List String) :
    unlines (lines ++ others) = unlines lines ++ unlines others := by
  rw [unlines, List.map_append, String.join_append]
  rfl

/-- **A line declares the module that it is written for.** -/
theorem moduleOfLine?_moduleLine {name : Ident} (h : Ident.isIdentifier name.text.toList = true) :
    moduleOfLine? (moduleLine name).toList = some name.text := by
  have hsharp : '#' ∉ name.text.toList := Ident.notMem_of_isIdentifier h (by decide)
  have hchars : (moduleLine name).toList =
      "pub mod ".toList ++ (name.spelling.toList ++ [';']) := by
    rw [moduleLine, String.toList_append, String.toList_append, List.append_assoc]
    rfl
  have hname : withoutRawMark name.spelling.toList = name.text.toList := by
    rw [Ident.spelling]
    cases name.raw with
    | true => rw [if_pos rfl, String.toList_append]; rfl
    | false =>
        rw [if_neg Bool.false_ne_true, withoutRawMark, if_neg]
        -- The mark has a sharp sign, which is in no identifier.
        intro hmark
        exact hsharp ((List.isPrefixOf_iff_prefix.mp hmark).subset (by decide))
  have hprefix : "pub mod ".toList.isPrefixOf (moduleLine name).toList = true := by
    rw [hchars]
    exact List.isPrefixOf_iff_prefix.mpr (List.prefix_append _ _)
  have hlast : (moduleLine name).toList.getLast? = some ';' := by
    rw [hchars, ← List.append_assoc, List.getLast?_concat]
  have hrest : ((moduleLine name).toList.drop 8).dropLast = name.spelling.toList := by
    have hlength : "pub mod ".toList.length = 8 := by decide
    rw [hchars, ← hlength, List.drop_left, List.dropLast_concat]
  rw [moduleOfLine?, hprefix, hlast, hrest, hname, String.ofList_toList]
  rfl

/-- The line that declares a module has no line end inside. -/
theorem notMem_moduleLine {name : Ident} (h : Ident.isIdentifier name.text.toList = true) :
    '\n' ∉ (moduleLine name).toList := by
  have hname : '\n' ∉ name.text.toList := Ident.notMem_of_isIdentifier h (by decide)
  rw [moduleLine, Ident.spelling]
  cases name.raw with
  | true => simp [String.toList_append, hname]
  | false => simp [String.toList_append, hname]

/-- **The text that declares modules declares them**, after lines that declare none. -/
theorem declaredModules_unlines_modules {modules : List Ident}
    (hmodules : ∀ name ∈ modules, Ident.isIdentifier name.text.toList = true)
    {front : List String} (hfront : ∀ line ∈ front, '\n' ∉ line.toList)
    (hnone : ∀ line ∈ front, moduleOfLine? line.toList = none) :
    declaredModules (unlines (front ++ modules.map moduleLine)) = modules.map (·.text) := by
  have hlines : ∀ line ∈ front ++ modules.map moduleLine, '\n' ∉ line.toList :=
    List.forall_mem_append.mpr ⟨hfront, List.forall_mem_map.mpr fun name hname =>
      notMem_moduleLine (hmodules name hname)⟩
  have hfront' : front.filterMap (fun line => moduleOfLine? line.toList) = [] :=
    List.filterMap_eq_nil_iff.mpr hnone
  rw [declaredModules_unlines hlines, List.filterMap_append, hfront', List.nil_append,
    List.filterMap_map, ← List.filterMap_eq_map]
  exact List.filterMap_congr fun name hname => moduleOfLine?_moduleLine (hmodules name hname)

/-! ### Printing lines -/

namespace Layout

/-- **Lines are printed one below the other** where every break ends a line and nothing is
indented. -/
theorem contents_printAllOn_lines {after : Nat} {page : Page} (hdue : page.due = 0)
    (hindent : page.indent = 0) (lines : List String) :
    (printAllOn true after page (lines.flatMap fun line => [text line, newline])).contents =
      page.contents ++ unlines lines := by
  induction lines generalizing page with
  | nil => exact (String.append_empty).symm
  | cons line lines ih =>
      have hblanks : "".pushn ' ' 0 = "" := rfl
      have hline : ((page.write line).endLine 0 "").contents = page.contents ++ (line ++ "\n") := by
        simp [Page.endLine, Page.write, Page.contents, hdue, hblanks, String.join_append]
      have hdue' : ((page.write line).endLine 0 "").due = 0 := by
        simp [Page.endLine, Page.write, hindent]
      have hindent' : ((page.write line).endLine 0 "").indent = 0 := by
        simp [Page.endLine, Page.write, hindent]
      rw [List.flatMap_cons, List.cons_append, List.singleton_append, printAllOn, printAllOn,
        printOn, newline, printOn, if_pos rfl, ← newline, ih hdue' hindent', hline,
        String.append_assoc, unlines_cons]

/-- **A box of lines** does not fit into a line, so they are printed one below the other. -/
theorem print_lines (line : String) (lines : List String) :
    (box 0 none ((line :: lines).flatMap fun line => [text line, newline])).print =
      unlines (line :: lines) := by
  have hwide : ((({} : Page).space <
      ((widthOfAll ((line :: lines).flatMap fun line => [text line, newline]) + 0 : Nat) : Int)) :
      Bool) = true := by
    rw [List.flatMap_cons, List.cons_append, List.singleton_append, widthOfAll, widthOfAll,
      decide_eq_true_iff]
    simp only [newline, width, tooWide, margin]
    omega
  rw [print, printOn]
  dsimp only
  rw [hwide, Bool.true_or, if_pos rfl]
  exact (contents_printAllOn_lines rfl rfl (line :: lines)).trans (String.empty_append)

end Layout

namespace Code

open Layout

/-- The layouts of items are those of the items one by one. -/
theorem Item.layoutOfEach_eq_map (items : List Item) :
    Item.layoutOfEach items = items.map Item.layout := by
  induction items with
  | nil => rfl
  | cons item items ih => rw [Item.layoutOfEach, List.map_cons, ih]

/-- **The text that declares modules**: documentation, and then a line for each module. -/
theorem File.print_modules (doc : String) (docs : List String) (modules : List Ident) :
    ({ docs := doc :: docs, items := modules.map .moduleFile } : File).print =
      unlines ((doc :: docs).map ("//!" ++ ·) ++ modules.map moduleLine) := by
  have hdocs : docLayout "//!" (doc :: docs) =
      ((doc :: docs).map ("//!" ++ ·)).flatMap fun line => [text line, newline] := by
    rw [docLayout, List.flatMap_map]
  have hitems : ((Item.layoutOfEach (modules.map .moduleFile)).flatMap fun item =>
      item ++ [newline]) = (modules.map moduleLine).flatMap fun line => [text line, newline] := by
    rw [Item.layoutOfEach_eq_map, List.map_map, List.flatMap_map, List.flatMap_map]
    rfl
  rw [File.print, File.layout]
  dsimp only
  rw [hdocs, hitems, ← List.flatMap_append, List.map_cons, List.cons_append, print_lines]

end Code

/-! ### Names of files -/

/-- The module of an operation has the name of the file that declares modules exactly when the
operation has. -/
theorem moduleName_eq_ok_mod_iff {operation : String} :
    moduleName operation = .ok "mod" ↔ Text.snakeCase operation = "mod" := by
  have hpath : ∀ name ∈ Ident.pathKeywords, name ++ "_" ≠ "mod" := by decide
  rw [moduleName, map_eq_ok_iff]
  constructor
  · rintro ⟨ident, hident, htext⟩
    rcases Ident.ofSpelling_eq_ok_iff.mp hident with ⟨hmem, rfl⟩ | ⟨-, rfl⟩ | ⟨-, -, rfl⟩
    · exact absurd htext (hpath _ hmem)
    · exact htext
    · exact htext
  · intro hsnake
    refine ⟨{ text := "mod", raw := true }, ?_, rfl⟩
    rw [Ident.ofValueName, hsnake]
    decide

/-- **The files of operations** have the names of their modules, which are distinct. -/
theorem operationFiles_eq_ok {taken : List String} {models : List ClassModel}
    {files : List OutputFile} (h : operationFiles taken models = .ok files) :
    ∃ stems, models.mapM (fun model => moduleName model.operationName) = .ok stems ∧
      files.map (·.name) = stems.map (· ++ ".rs") ∧ stems.Nodup ∧
      ∀ stem ∈ stems, stem ∉ taken := by
  induction models generalizing taken files with
  | nil =>
      obtain rfl := Except.ok.inj h
      exact ⟨[], rfl, rfl, List.nodup_nil, fun _ hmem => absurd hmem List.not_mem_nil⟩
  | cons model models ih =>
      rw [operationFiles, bind_eq_ok_iff] at h
      obtain ⟨name, hname, h⟩ := h
      split at h
      · cases h
      rename_i hnew
      simp only [bind_eq_ok_iff, pure_eq_ok_iff] at h
      obtain ⟨code, -, content, -, rest, hrest, rfl⟩ := h
      obtain ⟨stems, hstems, hnames, hnodup, hfree⟩ := ih hrest
      refine ⟨name :: stems, ?_, ?_, nodup_cons_and_notMem_iff.mpr ⟨hnew, hnodup, hfree⟩⟩
      · rw [List.mapM_cons, hname, bind_eq_ok_iff]
        exact ⟨name, rfl, by rw [hstems]; rfl⟩
      · rw [List.map_cons, List.map_cons, hnames]

/-- The lines at the top of every generated file. -/
def noticeLines : List String :=
  ["// This code was automatically generated by crudkit-gen. Do not edit manually.", ""]

/-- **The last file** declares the modules of operations, in order. -/
theorem indexFile_eq_ok {operations : List String} {file : OutputFile}
    (h : indexFile operations = .ok file) :
    file.name = indexName ∧ operations.mapM moduleName = .ok (declaredModules file.content) := by
  simp only [indexFile, emitIndex, bind_eq_ok_iff, pure_eq_ok_iff] at h
  obtain ⟨_, ⟨modules, hmodules, rfl⟩, content, hrender, rfl⟩ := h
  have hidentifier : ∀ name ∈ modules, Ident.isIdentifier name.text.toList = true := by
    intro name hname
    obtain ⟨operation, -, hoperation⟩ := exists_of_mem_mapM hmodules hname
    exact Ident.isIdentifier_of_ofSpelling hoperation
  have hstems : operations.mapM moduleName = .ok (modules.map (·.text)) := by
    rw [mapM_eq_ok_iff] at hmodules ⊢
    rw [List.forall₂_map_right_iff]
    exact hmodules.imp fun operation name hname => map_eq_ok_iff.mpr ⟨name, hname, rfl⟩
  rw [renderCode] at hrender
  split at hrender
  · obtain rfl := Except.ok.inj hrender
    have hnotice : notice = unlines noticeLines := rfl
    refine ⟨rfl, hstems.trans (congrArg Except.ok ?_)⟩
    dsimp only
    rw [Code.File.print_modules, hnotice, ← unlines_append, ← List.append_assoc,
      declaredModules_unlines_modules hidentifier (by decide) (by decide)]
  · cases hrender

/-- **The names of all files.** -/
theorem outputFiles_eq_ok {models : List ClassModel} {files : List OutputFile}
    (h : outputFiles models = .ok files) :
    ∃ stems index, models.mapM (fun model => moduleName model.operationName) = .ok stems ∧
      stems.Nodup ∧ files.map (·.name) = stems.map (· ++ ".rs") ++ [indexName] ∧
      files.getLast? = some index ∧ declaredModules index.content = stems := by
  simp only [outputFiles, bind_eq_ok_iff, pure_eq_ok_iff] at h
  obtain ⟨own, hown, index, hindex, rfl⟩ := h
  obtain ⟨stems, hstems, hnames, hnodup, -⟩ := operationFiles_eq_ok hown
  obtain ⟨hname, hdeclared⟩ := indexFile_eq_ok hindex
  rw [List.mapM_map] at hdeclared
  refine ⟨stems, index, hstems, hnodup, ?_, List.getLast?_concat, ?_⟩
  · rw [List.map_append, hnames, List.map_singleton, hname]
  · exact Except.ok.inj (hdeclared.symm.trans hstems)

/-- An operation with a module name is one of those that the names are made of. -/
theorem mem_stems_iff {models : List ClassModel} {stems : List String}
    (h : models.mapM (fun model => moduleName model.operationName) = .ok stems) :
    "mod" ∈ stems ↔ ∃ model ∈ models, Text.snakeCase model.operationName = "mod" := by
  simp only [← moduleName_eq_ok_mod_iff]
  constructor
  · exact exists_of_mem_mapM h
  · rintro ⟨model, hmodel, hname⟩
    obtain ⟨stem, hstem, hsame⟩ := exists_mem_of_mapM h hmodel
    obtain rfl := Except.ok.inj (hname.symm.trans hsame)
    exact hstem

/-- **When no generated file replaces another one.** The files of class models are one for each,
with the name of its module, and one that declares these modules in order. Their names are distinct
exactly when the name of no operation becomes `mod`. -/
theorem outputFiles_nodup_iff {models : List ClassModel} {files : List OutputFile}
    (h : outputFiles models = .ok files) :
    ∃ stems index, models.mapM (fun model => moduleName model.operationName) = .ok stems ∧
      files.length = models.length + 1 ∧
      files.map (·.name) = stems.map (· ++ ".rs") ++ ["mod.rs"] ∧
      files.getLast? = some index ∧ declaredModules index.content = stems ∧
      ((files.map (·.name)).Nodup ↔
        ∀ model ∈ models, Text.snakeCase model.operationName ≠ "mod") := by
  obtain ⟨stems, index, hstems, hnodup, hnames, hlast, hdeclared⟩ := outputFiles_eq_ok h
  have hinjective : Function.Injective (· ++ ".rs") :=
    fun _ _ hsame => (String.append_left_inj ".rs").mp hsame
  have hlength : files.length = models.length + 1 := by
    rw [← List.length_map (·.name), hnames, List.length_append, List.length_map,
      (mapM_eq_ok_iff.mp hstems).length_eq]
    rfl
  have hindex : "mod" ++ ".rs" ∈ stems.map (· ++ ".rs") ↔
      ∃ model ∈ models, Text.snakeCase model.operationName = "mod" := by
    rw [← mem_stems_iff hstems]
    exact List.mem_map_of_injective hinjective
  refine ⟨stems, index, hstems, hlength, hnames, hlast, hdeclared, ?_⟩
  have hname : indexName = "mod" ++ ".rs" := rfl
  rw [hnames, ← List.concat_eq_append, List.nodup_concat, hname, hindex,
    List.nodup_map_iff hinjective, and_iff_left hnodup]
  push Not
  rfl

/-- A query for a title, under the given name. -/
def titleModel (operation : String) : ClassModel where
  package := "crate"
  operationName := operation
  operationKind := .query
  responseClass := some {
    name := nameOfResponse operation
    parameters := [{ name := "title", type := .named "String" true, isLast := true }] }

set_option maxRecDepth 10000 in
theorem names_outputFiles_titles :
    (outputFiles [titleModel "Book", titleModel "type"]).map (·.map (·.name)) =
      .ok ["book.rs", "type.rs", "mod.rs"] := by rfl

set_option maxRecDepth 10000 in
/-- The files of two operations have distinct names. One of them is called like a keyword, and its
module is declared without the mark of raw identifiers. -/
theorem outputFiles_nodup_iff_titles :
    ∃ files index, outputFiles [titleModel "Book", titleModel "type"] = .ok files ∧
      files.map (·.name) = ["book.rs", "type.rs", "mod.rs"] ∧ files.getLast? = some index ∧
      declaredModules index.content = ["book", "type"] ∧ (files.map (·.name)).Nodup := by
  obtain ⟨files, hfiles, hnames⟩ := map_eq_ok_iff.mp names_outputFiles_titles
  obtain ⟨stems, index, hstems, -, hall, hlast, hdeclared, hnodup⟩ := outputFiles_nodup_iff hfiles
  have hmods : ∀ model ∈ [titleModel "Book", titleModel "type"],
      Text.snakeCase model.operationName ≠ "mod" := by decide
  obtain rfl : stems = ["book", "type"] := Except.ok.inj (hstems.symm.trans (by rfl))
  exact ⟨files, index, hfiles, hnames, hlast, hdeclared, hnodup.mpr hmods⟩

set_option maxRecDepth 10000 in
theorem names_outputFiles_mod :
    (outputFiles [titleModel "Mod"]).map (·.map (·.name)) = .ok ["mod.rs", "mod.rs"] := by rfl

/-- **The file of an operation is replaced** by the one that declares its module, if the operation
is called `Mod`. -/
theorem outputFiles_replaced_mod :
    ∃ files, outputFiles [titleModel "Mod"] = .ok files ∧ ¬(files.map (·.name)).Nodup := by
  obtain ⟨files, hfiles, hnames⟩ := map_eq_ok_iff.mp names_outputFiles_mod
  refine ⟨files, hfiles, ?_⟩
  rw [hnames]
  decide

end ClientSdk
